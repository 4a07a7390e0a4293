import Dataflow.Display
import Dataflow.Proofs.Sorting
import Mathlib.Algebra.Order.Field.Basic
import Mathlib.Data.Rat.Cast.Order

/-!
# What the display order depends on

Groups and methods are compared by some numbers and then by a text. Together these are a rank, and
ranks that tie are equal, so the ranks in display order do not depend on the order that the groups
or methods came in. What else is known of methods that tie may do so.

* `share`: the part of the methods of a group that is supported.
* `GroupRank`: the share, the usages, the size and the name of a group.
* `MethodRank`: the bucket, the usages and the signature of a method.

Results:
* `compareGroups_eq`, `compareMethods_eq`: groups and methods are compared by their ranks.
* `groupOrder_congr`, `signatures_congr`: the names of groups and the signatures of methods in
  display order depend on the ranks, each as often as it occurs.
-/

namespace Dataflow.Display

/-! ## Groups -/

theorem groupSize_pos (methods : List Method) : 0 < groupSize methods := by
  unfold groupSize
  cases methods with
  | nil => exact Nat.one_pos
  | cons method methods => exact Nat.succ_pos _

theorem groupSize_congr {a b : List Method} (h : a.Perm b) : groupSize a = groupSize b := by
  unfold groupSize
  rw [h.isEmpty_eq, h.length_eq]

theorem totalUsages_eq_sum (methods : List Method) :
    totalUsages methods = (methods.map Method.usageCount).sum := by
  induction methods with
  | nil => rfl
  | cons method methods ih =>
    rw [List.map_cons, List.sum_cons, ← ih]
    rfl

theorem totalUsages_congr {a b : List Method} (h : a.Perm b) : totalUsages a = totalUsages b := by
  rw [totalUsages_eq_sum, totalUsages_eq_sum]
  exact (h.map Method.usageCount).sum_nat

/-- The part of the methods of a group that is supported, 0 for an empty group. -/
def share (methods : List Method) : ℚ :=
  supportedCount methods / groupSize methods

theorem share_congr {a b : List Method} (h : a.Perm b) : share a = share b := by
  unfold share supportedCount
  rw [h.countP_eq, groupSize_congr h]

/-- Products across compare shares. -/
theorem compareShare_eq (a b : List Method) : compareShare a b = compare (share a) (share b) := by
  have ha : (0 : ℚ) < groupSize a := Nat.cast_pos.mpr (groupSize_pos a)
  have hb : (0 : ℚ) < groupSize b := Nat.cast_pos.mpr (groupSize_pos b)
  unfold compareShare share
  rcases lt_trichotomy (supportedCount a * groupSize b) (supportedCount b * groupSize a)
    with h | h | h
  · rw [compare_lt_iff_lt.mpr h, eq_comm, compare_lt_iff_lt, div_lt_div_iff₀ ha hb]
    exact_mod_cast h
  · rw [compare_eq_iff_eq.mpr h, eq_comm, compare_eq_iff_eq, div_eq_div_iff ha.ne' hb.ne']
    exact_mod_cast h
  · rw [compare_gt_iff_gt.mpr h, eq_comm, compare_gt_iff_gt, div_lt_div_iff₀ hb ha]
    exact_mod_cast h

/-- What the place of a group depends on. -/
structure GroupRank where
  share : ℚ
  usages : Nat
  size : Nat
  name : String
  deriving DecidableEq

namespace GroupRank

/-- The rank of a group. -/
def ofGroup (group : String × List Method) : GroupRank where
  share := Display.share group.2
  usages := totalUsages group.2
  size := group.2.length
  name := group.1

/-- The display order of ranks. -/
def compare (a b : GroupRank) : Ordering :=
  (Ord.compare a.share b.share).then <|
    (Ord.compare b.usages a.usages).then <|
      (Ord.compare b.size a.size).then (Ord.compare a.name b.name)

instance : Std.TransCmp compare :=
  inferInstanceAs (Std.TransCmp (compareLex (compareOn share)
    (compareLex (fun a b => compareOn usages b a)
      (compareLex (fun a b => compareOn size b a) (compareOn name)))))

instance : Std.LawfulEqCmp compare where
  eq_of_compare {a b} h := by
    simp only [compare, Ordering.then_eq_eq, Std.LawfulEqCmp.compare_eq_iff_eq] at h
    obtain ⟨hshare, husages, hsize, hname⟩ := h
    cases a
    cases b
    simp_all

/-- The order of the methods of a group does not matter to its rank. -/
theorem ofGroup_congr {name : String} {a b : List Method} (h : a.Perm b) :
    ofGroup (name, a) = ofGroup (name, b) := by
  unfold ofGroup
  rw [share_congr h, totalUsages_congr h, h.length_eq]

end GroupRank

/-- Groups are compared by rank. -/
theorem compareGroups_eq (a b : String × List Method) :
    compareGroups a b = GroupRank.compare (.ofGroup a) (.ofGroup b) := by
  unfold compareGroups
  rw [compareShare_eq]
  rfl

/-- **The order of groups** depends on their ranks. -/
theorem groupOrder_congr {a b : Keyed (List Method)}
    (h : (a.map GroupRank.ofGroup).Perm (b.map GroupRank.ofGroup)) :
    groupOrder a = groupOrder b := by
  have hranks := Sorting.map_mergeSort_congr
    (fun x y => congrArg Ordering.isLE (compareGroups_eq x y)) h
  have hnames := congrArg (List.map GroupRank.name) hranks
  rw [List.map_map, List.map_map] at hnames
  exact hnames

/-! ## Methods -/

/-- What the place of a method depends on. -/
structure MethodRank where
  bucket : Nat
  usages : Nat
  signature : String
  deriving DecidableEq

namespace MethodRank

/-- The display order of ranks. -/
def compare (a b : MethodRank) : Ordering :=
  (Ord.compare a.bucket b.bucket).then <|
    (Ord.compare b.usages a.usages).then (Ord.compare a.signature b.signature)

instance : Std.TransCmp compare :=
  inferInstanceAs (Std.TransCmp (compareLex (compareOn bucket)
    (compareLex (fun a b => compareOn usages b a) (compareOn signature))))

instance : Std.LawfulEqCmp compare where
  eq_of_compare {a b} h := by
    simp only [compare, Ordering.then_eq_eq, Std.LawfulEqCmp.compare_eq_iff_eq] at h
    obtain ⟨hbucket, husages, hsignature⟩ := h
    cases a
    cases b
    simp_all

end MethodRank

namespace Progress

/-- The last bucket holds the methods that are not open. -/
theorem bucket_eq_four_iff {progress : Progress} {method : Method} :
    progress.bucket method = 4 ↔ progress.isOpen method = false := by
  unfold bucket
  cases progress.isOpen method with
  | false => simp
  | true =>
    simp only [Bool.not_true, Bool.false_eq_true, if_false, reduceCtorEq, iff_false]
    split_ifs <;> decide

theorem bucket_le_four (progress : Progress) (method : Method) : progress.bucket method ≤ 4 := by
  unfold bucket
  simp only
  split_ifs <;> decide

/-- The rank of a method. -/
def rank (progress : Progress) (method : Method) : MethodRank where
  bucket := progress.bucket method
  usages := method.usageCount
  signature := method.signature

/-- Methods are compared by rank. -/
theorem compareMethods_eq (progress : Progress) (a b : Method) :
    progress.compareMethods a b = MethodRank.compare (progress.rank a) (progress.rank b) := rfl

/-- **The ranks in display order** depend on the ranks of the methods. -/
theorem ranks_congr (progress : Progress) {a b : List Method}
    (h : (a.map progress.rank).Perm (b.map progress.rank)) :
    (progress.sortMethods a).map progress.rank = (progress.sortMethods b).map progress.rank :=
  Sorting.map_mergeSort_congr
    (fun x y => congrArg Ordering.isLE (progress.compareMethods_eq x y)) h

/-- **The order of signatures** depends on the ranks of the methods. -/
theorem signatures_congr (progress : Progress) {a b : List Method}
    (h : (a.map progress.rank).Perm (b.map progress.rank)) :
    (progress.sortMethods a).map Method.signature =
      (progress.sortMethods b).map Method.signature := by
  have hsignatures := congrArg (List.map MethodRank.signature) (progress.ranks_congr h)
  rw [List.map_map, List.map_map] at hsignatures
  exact hsignatures

end Progress

end Dataflow.Display
