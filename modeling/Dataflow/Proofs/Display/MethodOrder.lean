import Dataflow.Proofs.Display.Closed

/-!
# Methods in display order

What the place of a method depends on, said without the order in which the conditions are tried.

* `Modeled`, `Unsaved`, `Seen`, `Open`: what is known of the work on a method.
* `InBucket progress method bucket`: the bucket a method belongs to by what is known of it.
* `Precedes progress a b`: by bucket, then the most used first, then by signature.
* `Arranges progress listed shown`: the methods `listed` are displayed as `shown`.

Results:
* `bucket_eq_iff`: the conditions of the buckets exclude each other, and every method meets one.
* `isLE_compareMethods_iff`: the comparison of methods is `Precedes`.
* `sortMethods_arranges`: sorting displays methods.
-/

namespace Dataflow.Display.Progress

variable {progress : Progress} {method : Method}

/-! ## What is known of a method -/

/-- Some model of the signature is not `none`. -/
def Modeled (progress : Progress) (method : Method) : Prop :=
  ∃ entry, progress.models.get? method.signature = some entry ∧
    ∃ modeled ∈ entry, modeled.model ≠ .none

/-- The signature has edits that are not saved. -/
def Unsaved (progress : Progress) (method : Method) : Prop :=
  method.signature ∈ progress.unsaved

/-- Automatic modeling has seen the signature. -/
def Seen (progress : Progress) (method : Method) : Prop :=
  method.signature ∈ progress.autoProcessed

/-- The method is not supported, or there is work on it. -/
def Open (progress : Progress) (method : Method) : Prop :=
  method.supported = false ∨ progress.Modeled method ∨ progress.Unsaved method

theorem modeled_iff : progress.Modeled method ↔ progress.hasModel method.signature = true := by
  unfold Modeled
  rw [hasModel_iff]
  simp only [Model.isModeled_iff]

theorem unsaved_iff :
    progress.Unsaved method ↔ progress.unsaved.contains method.signature = true :=
  List.contains_iff_mem.symm

theorem seen_iff :
    progress.Seen method ↔ progress.autoProcessed.contains method.signature = true :=
  List.contains_iff_mem.symm

theorem open_iff : progress.Open method ↔ progress.isOpen method = true := by
  unfold Open isOpen
  rw [modeled_iff, unsaved_iff, Bool.or_eq_true, Bool.or_eq_true, Bool.not_eq_true', or_assoc]

/-! ## Buckets -/

/-- The buckets of the display, each with what is known of its methods. -/
def InBucket (progress : Progress) (method : Method) : Nat → Prop
  | 0 => progress.Modeled method ∧ progress.Unsaved method ∧ progress.Seen method
  | 1 => progress.Open method ∧ ¬ progress.Modeled method ∧ progress.Seen method
  | 2 =>
    -- None of the other buckets.
    ¬ (progress.Modeled method ∧ progress.Unsaved method ∧ progress.Seen method) ∧
      ¬ (progress.Open method ∧ ¬ progress.Modeled method ∧ progress.Seen method) ∧
        ¬ (progress.Modeled method ∧ ¬ progress.Unsaved method) ∧ progress.Open method
  | 3 => progress.Modeled method ∧ ¬ progress.Unsaved method
  | 4 => ¬ progress.Open method
  | _ => False

/-- **A method is in the bucket whose condition it meets.** -/
theorem bucket_eq_iff {n : Nat} : progress.bucket method = n ↔ progress.InBucket method n := by
  match n with
  | 0 | 1 | 2 | 3 | 4 =>
    unfold bucket isOpen
    simp only [InBucket, Open, modeled_iff, unsaved_iff, seen_iff]
    -- What is left depends on four facts, each of which is true or false.
    generalize method.supported = supported
    generalize progress.hasModel method.signature = modeled
    generalize progress.unsaved.contains method.signature = unsaved
    generalize progress.autoProcessed.contains method.signature = seen
    revert supported modeled unsaved seen
    decide
  | n + 5 =>
    have hlast := progress.bucket_le_four method
    exact iff_of_false (by omega) not_false

/-! ## Display order -/

/-- One method may stand before another: by bucket, then the most used first, then by signature. -/
def Precedes (progress : Progress) (a b : Method) : Prop :=
  progress.bucket a < progress.bucket b ∨
    progress.bucket a = progress.bucket b ∧
      (b.usageCount < a.usageCount ∨
        b.usageCount = a.usageCount ∧ a.signature ≤ b.signature)

theorem isLE_compareMethods_iff {a b : Method} :
    (progress.compareMethods a b).isLE = true ↔ progress.Precedes a b := by
  unfold compareMethods Precedes
  rw [Ordering.isLE_then_iff_or, Ordering.isLE_then_iff_or, compare_lt_iff_lt, compare_eq_iff_eq,
    compare_lt_iff_lt, compare_eq_iff_eq, Ordering.isLE_iff_ne_gt,
    ← ne_eq, compare_le_iff_le]

/-- The methods `listed` are displayed as `shown`. -/
structure Arranges (progress : Progress) (listed shown : List Method) : Prop where
  /-- No method is lost and none repeated. -/
  perm : shown.Perm listed
  /-- Every method may stand before those behind it. -/
  sorted : shown.Pairwise progress.Precedes
  /-- Methods of one rank stay in the order they came in. -/
  stable : ∀ rank, shown.filter (progress.rank · = rank) = listed.filter (progress.rank · = rank)
  /-- The open methods stand before the others. -/
  openFirst : ∃ opened closed, shown = opened ++ closed ∧
    (∀ method ∈ opened, progress.Open method) ∧ ∀ method ∈ closed, ¬ progress.Open method

/-- Methods tie with a rank when they have it. -/
theorem ties_eq (progress : Progress) (rank : MethodRank) :
    (fun method => MethodRank.compare (progress.rank method) rank == .eq) =
      fun method => decide (progress.rank method = rank) := by
  funext method
  rw [Bool.eq_iff_iff, beq_iff_eq, decide_eq_true_eq, Std.LawfulEqCmp.compare_eq_iff_eq]

theorem stable_sortMethods (progress : Progress) (methods : List Method) (rank : MethodRank) :
    (progress.sortMethods methods).filter (progress.rank · = rank) =
      methods.filter (progress.rank · = rank) := by
  have hstable := Sorting.filter_mergeSort
    (fun a b => congrArg Ordering.isLE (progress.compareMethods_eq a b)) rank methods
  rwa [ties_eq] at hstable

/-- **Methods in display order.** Sorting displays the methods of any list, and the buckets it goes
by are those whose conditions the methods meet. -/
theorem sortMethods_arranges (progress : Progress) (methods : List Method) :
    progress.Arranges methods (progress.sortMethods methods) ∧
      ∀ method n, progress.bucket method = n ↔ progress.InBucket method n := by
  refine ⟨⟨List.mergeSort_perm _ _, ?_, progress.stable_sortMethods methods, ?_⟩,
    fun method n => bucket_eq_iff⟩
  · have hsorted := Sorting.pairwise_mergeSort
      (fun a b => congrArg Ordering.isLE (progress.compareMethods_eq a b)) methods
    exact hsorted.imp isLE_compareMethods_iff.mp
  · refine ⟨_, _, (sortMethods_eq_append progress methods).symm, fun method hmethod => ?_,
      fun method hmethod => ?_⟩
    · exact open_iff.mpr (List.mem_filter.mp hmethod).2
    · have hclosed := (List.mem_filter.mp hmethod).2
      rw [open_iff]
      simpa using hclosed

end Dataflow.Display.Progress
