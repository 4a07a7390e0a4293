import Dataflow.Proofs.Display.Layout

/-!
# Names of groups in display order

The order of groups goes by a fraction, which is compared by products across. It is an order of the
names, and names have one arrangement by it.

* `Bounded methods`: a group whose numbers fit into words.
* `compareInWords a b`: the comparison of groups with all numbers in 64-bit words.
* `GroupRank.Precedes a b`: the smaller share first, then more usages, then more methods, then by
  name.
* `rankOf groups name`: the rank of the group of a name.

Results:
* `compareInWords_eq`: in words the comparison of bounded groups is the same, as no product
  overflows.
* `compare_eq_lt_iff`: the comparison of ranks is `GroupRank.Precedes`.
* `groupOrder_unique`: the names in display order are the one arrangement of the names that is
  strictly increasing.
-/

namespace Dataflow.Display

/-! ## In words -/

/-- The methods of a group are fewer than 2^32, and their usages fewer than 2^64. -/
structure Bounded (methods : List Method) : Prop where
  size : methods.length < 2 ^ 32
  usages : totalUsages methods < 2 ^ 64

/-- The number of usages of a group, added up in words. -/
def usageWord (methods : List Method) : UInt64 :=
  methods.foldr (fun method total => UInt64.ofNat method.usageCount + total) 0

/-- The order of two groups by the share of supported methods, computed in words. -/
def compareShareInWords (a b : List Method) : Ordering :=
  compare (UInt64.ofNat (supportedCount a) * UInt64.ofNat (groupSize b))
    (UInt64.ofNat (supportedCount b) * UInt64.ofNat (groupSize a))

/-- The display order of groups, computed in words. -/
def compareInWords (a b : String × List Method) : Ordering :=
  (compareShareInWords a.2 b.2).then <|
    (compare (usageWord b.2) (usageWord a.2)).then <|
      (compare (UInt64.ofNat b.2.length) (UInt64.ofNat a.2.length)).then (compare a.1 b.1)

section

variable {methods a b : List Method}

theorem supportedCount_le (methods : List Method) : supportedCount methods ≤ methods.length :=
  List.countP_le_length

theorem Bounded.groupSize_lt (h : Bounded methods) : groupSize methods < 2 ^ 32 := by
  unfold groupSize
  split_ifs
  · decide
  · exact h.size

/-- **No product overflows** in comparing bounded groups. -/
theorem Bounded.product_lt (ha : Bounded a) (hb : Bounded b) :
    supportedCount a * groupSize b < 2 ^ 64 :=
  calc
    supportedCount a * groupSize b < 2 ^ 32 * 2 ^ 32 :=
      Nat.mul_lt_mul'' ((supportedCount_le a).trans_lt ha.size) hb.groupSize_lt
    _ = 2 ^ 64 := (Nat.pow_add 2 32 32).symm

theorem usageWord_eq (methods : List Method) :
    usageWord methods = UInt64.ofNat (totalUsages methods) := by
  induction methods with
  | nil => rfl
  | cons method methods ih =>
    have hword : usageWord (method :: methods) =
        UInt64.ofNat method.usageCount + usageWord methods := rfl
    rw [hword, ih, ← UInt64.ofNat_add]
    rfl

/-- Numbers that fit into words are compared there as they are. -/
theorem compare_ofNat {n m : Nat} (hn : n < 2 ^ 64) (hm : m < 2 ^ 64) :
    compare (UInt64.ofNat n) (UInt64.ofNat m) = compare n m := by
  rw [UInt64.compare_eq_toNat_compare_toNat, UInt64.toNat_ofNat_of_lt' hn,
    UInt64.toNat_ofNat_of_lt' hm]

theorem compareShareInWords_eq (ha : Bounded a) (hb : Bounded b) :
    compareShareInWords a b = compareShare a b := by
  unfold compareShareInWords compareShare
  rw [← UInt64.ofNat_mul, ← UInt64.ofNat_mul, compare_ofNat (ha.product_lt hb) (hb.product_lt ha)]

end

/-- **Words are wide enough** for comparing bounded groups. -/
theorem compareInWords_eq {a b : String × List Method} (ha : Bounded a.2) (hb : Bounded b.2) :
    compareInWords a b = compareGroups a b := by
  have hsize : ∀ {methods : List Method}, Bounded methods → methods.length < 2 ^ 64 :=
    fun h => h.size.trans (by decide)
  unfold compareInWords compareGroups
  rw [compareShareInWords_eq ha hb, usageWord_eq, usageWord_eq, compare_ofNat hb.usages ha.usages,
    compare_ofNat (hsize hb) (hsize ha)]

/-! ## An order of names -/

namespace GroupRank

/-- One rank stands before another: the smaller share first, then more usages, then more methods,
then by name. -/
def Precedes (a b : GroupRank) : Prop :=
  a.share < b.share ∨ a.share = b.share ∧
    (b.usages < a.usages ∨ b.usages = a.usages ∧
      (b.size < a.size ∨ b.size = a.size ∧ a.name < b.name))

theorem compare_eq_lt_iff {a b : GroupRank} : compare a b = .lt ↔ a.Precedes b := by
  unfold compare Precedes
  rw [Ordering.then_eq_lt, Ordering.then_eq_lt, Ordering.then_eq_lt, compare_lt_iff_lt,
    compare_eq_iff_eq, compare_lt_iff_lt, compare_eq_iff_eq, compare_lt_iff_lt, compare_eq_iff_eq,
    compare_lt_iff_lt]

instance : IsStrictTotalOrder GroupRank Precedes where
  irrefl rank h := by
    have hself : compare rank rank = .eq := Std.ReflCmp.compare_self
    rw [← compare_eq_lt_iff, hself] at h
    cases h
  trans a b c hab hbc := by
    rw [← compare_eq_lt_iff] at *
    exact Std.TransCmp.lt_trans hab hbc
  trichotomous a b hab hba := by
    rw [← compare_eq_lt_iff] at hab hba
    cases h : compare a b with
    | lt => exact absurd h hab
    | eq => exact Std.LawfulEqCmp.eq_of_compare h
    | gt => exact absurd (Std.OrientedCmp.gt_iff_lt.mp h) hba

end GroupRank

/-- The group of a name, without methods where there is none. -/
def groupOf (groups : Keyed (List Method)) (name : String) : String × List Method :=
  (name, (groups.get? name).getD [])

/-- The rank of the group of a name. -/
def rankOf (groups : Keyed (List Method)) (name : String) : GroupRank :=
  GroupRank.ofGroup (groupOf groups name)

variable {groups : Keyed (List Method)}

theorem rankOf_injective (groups : Keyed (List Method)) : Function.Injective (rankOf groups) :=
  fun _ _ h => congrArg GroupRank.name h

theorem compareGroups_groupOf_iff {a b : String} :
    compareGroups (groupOf groups a) (groupOf groups b) = .lt ↔
      (rankOf groups a).Precedes (rankOf groups b) := by
  rw [compareGroups_eq, GroupRank.compare_eq_lt_iff]
  rfl

/-- **The comparison of groups is a strict total order** of their names. -/
theorem isStrictTotalOrder_names (groups : Keyed (List Method)) :
    IsStrictTotalOrder String fun a b =>
      compareGroups (groupOf groups a) (groupOf groups b) = .lt := by
  simp only [compareGroups_groupOf_iff]
  exact (RelEmbedding.preimage ⟨rankOf groups, rankOf_injective groups⟩
    GroupRank.Precedes).isStrictTotalOrder

/-! ## The one arrangement -/

/-- A group of a table is the group of its name. -/
theorem groupOf_of_mem (h : groups.Ordered) {group : String × List Method} (hmem : group ∈ groups) :
    groupOf groups group.1 = group := by
  unfold groupOf
  rw [h.get?_eq_some_iff.mpr hmem]
  rfl

/-- **Names in display order increase strictly.** -/
theorem pairwise_groupOrder (h : groups.Ordered) :
    (groupOrder groups).Pairwise fun a b => (rankOf groups a).Precedes (rankOf groups b) := by
  have hsorted : (groupOrder groups).Pairwise fun a b =>
      (GroupRank.compare (rankOf groups a) (rankOf groups b)).isLE = true := by
    have hranks := Sorting.pairwise_mergeSort
      (fun a b => congrArg Ordering.isLE (compareGroups_eq a b)) groups
    unfold groupOrder rankOf
    rw [List.pairwise_map]
    refine hranks.imp_of_mem fun {a b} ha hb hab => ?_
    rw [List.mem_mergeSort] at ha hb
    rwa [groupOf_of_mem h ha, groupOf_of_mem h hb]
  have hnodup : (groupOrder groups).Nodup :=
    (groupOrder_perm groups).nodup_iff.mpr (List.Pairwise.imp ne_of_lt h)
  refine (hsorted.and hnodup).imp fun {a b} ⟨hle, hne⟩ => ?_
  rcases Ordering.isLE_iff_eq_lt_or_eq_eq.mp hle with hlt | heq
  · exact GroupRank.compare_eq_lt_iff.mp hlt
  · exact absurd (rankOf_injective groups (Std.LawfulEqCmp.eq_of_compare heq)) hne

/-- **Names of groups in display order** are the one strictly increasing arrangement of the names,
by an order that can be computed in words. -/
theorem groupOrder_unique (groups : Keyed (List Method)) (hgroups : groups.Ordered)
    (hbounded : ∀ group ∈ groups, Bounded group.2) :
    (∀ a ∈ groups, ∀ b ∈ groups,
      supportedCount a.2 * groupSize b.2 < 2 ^ 64 ∧ compareInWords a b = compareGroups a b) ∧
    (IsStrictTotalOrder String fun a b =>
      compareGroups (groupOf groups a) (groupOf groups b) = .lt) ∧
    ∀ names : List String, names = groupOrder groups ↔
      names.Perm groups.keys ∧
        names.Pairwise fun a b => (rankOf groups a).Precedes (rankOf groups b) := by
  refine ⟨fun a ha b hb => ⟨(hbounded a ha).product_lt (hbounded b hb),
    compareInWords_eq (hbounded a ha) (hbounded b hb)⟩, isStrictTotalOrder_names groups,
    fun names => ⟨?_, ?_⟩⟩
  · rintro rfl
    exact ⟨groupOrder_perm groups, pairwise_groupOrder hgroups⟩
  · rintro ⟨hperm, hsorted⟩
    refine (hperm.trans (groupOrder_perm groups).symm).eq_of_pairwise (fun a b _ _ hab hba => ?_)
      hsorted (pairwise_groupOrder hgroups)
    exact absurd hba (asymm hab)

/-- A group without methods has the share 0, like one whose methods are all unsupported. -/
theorem groupOrder_libraries :
    let query : Method :=
      { identity := ⟨"org.sql2o", "Connection", "createQuery", "(String)", .method,
          "org.sql2o.Connection#createQuery(String)"⟩
        library := "sql2o", libraryVersion := some "1.6.0", supported := true
        supportedType := .sink, usages := [], endpointKind := none }
    let logger : Method :=
      { query with
        library := "slf4j", supported := false, supportedType := .none
        usages := [⟨"info(...)", none, .source⟩] }
    let groups : Keyed (List Method) :=
      [("guava", []), ("slf4j", [logger]), ("sql2o", [query, logger])]
    groups.Ordered ∧ (∀ group ∈ groups, Bounded group.2) ∧
      ["slf4j", "guava", "sql2o"] = groupOrder groups := by
  intro query logger groups
  have hgroups : groups.Ordered := by
    unfold Keyed.Ordered
    decide
  have hbounded : ∀ group ∈ groups, Bounded group.2 := by
    intro group hgroup
    simp only [groups, List.mem_cons, List.not_mem_nil, or_false] at hgroup
    rcases hgroup with rfl | rfl | rfl <;> exact ⟨by decide, by decide⟩
  have hsorted : ["slf4j", "guava", "sql2o"].Pairwise fun a b =>
      compareGroups (groupOf groups a) (groupOf groups b) = .lt := by
    decide
  refine ⟨hgroups, hbounded, ?_⟩
  exact ((groupOrder_unique groups hgroups hbounded).2.2 _).mpr
    ⟨by decide, hsorted.imp compareGroups_groupOf_iff.mp⟩

end Dataflow.Display
