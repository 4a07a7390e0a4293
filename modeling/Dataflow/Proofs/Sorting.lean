import Mathlib.Data.List.Perm.Basic
import Mathlib.Data.List.Perm.Lattice

/-!
# Sorting by a rank

Elements are compared by their ranks, and the sort is stable: elements whose ranks tie stay in the
order they came in.

Results:
* `eq_of_ties`: a sorted list is determined by what ties with each rank.
* `pairwise_mergeSort`: the ranks of a sorted list are in order.
* `filter_mergeSort`: what ties with a rank stands in a sorted list as it stood before.
* `mergeSort_filter`: elements may be left out before sorting or after.
* `mergeSort_congr_iff`: sorting forgets the order of a list iff the elements that tie are equal.
* `map_mergeSort_congr`: it forgets the order of the ranks in any case.
* `filter_append_filter_not`: a list is cut in two by a condition that holds up to some place.
-/

namespace Dataflow.Sorting

variable {α κ : Type} {cmp : κ → κ → Ordering} [Std.TransCmp cmp] {rank : α → κ}
  {le : α → α → Bool}

/-! ## What ties with each rank -/

/-- What ties with each rank makes up the whole list. -/
theorem mem_of_ties {xs ys : List α} {x : α} (hx : x ∈ xs)
    (h : ∀ r, (xs.filter fun z => cmp (rank z) r == .eq) =
      ys.filter fun z => cmp (rank z) r == .eq) :
    x ∈ ys := by
  have hmem : x ∈ xs.filter fun z => cmp (rank z) (rank x) == .eq :=
    List.mem_filter.mpr ⟨hx, beq_iff_eq.mpr Std.ReflCmp.compare_self⟩
  rw [h] at hmem
  exact (List.mem_filter.mp hmem).1

theorem isLE_first {x y : α} {ys : List α}
    (hys : (y :: ys).Pairwise fun x y => (cmp (rank x) (rank y)).isLE = true) (hx : x ∈ y :: ys) :
    (cmp (rank y) (rank x)).isLE = true := by
  rcases List.mem_cons.mp hx with rfl | hlater
  · have hself : cmp (rank x) (rank x) = .eq := Std.ReflCmp.compare_self
    rw [hself]
    rfl
  · exact List.rel_of_pairwise_cons hys hlater

/-- **A sorted list is determined by what ties with each rank**, in its order. -/
theorem eq_of_ties {xs ys : List α}
    (hxs : xs.Pairwise fun x y => (cmp (rank x) (rank y)).isLE = true)
    (hys : ys.Pairwise fun x y => (cmp (rank x) (rank y)).isLE = true)
    (h : ∀ r, (xs.filter fun z => cmp (rank z) r == .eq) =
      ys.filter fun z => cmp (rank z) r == .eq) :
    xs = ys := by
  induction xs generalizing ys with
  | nil =>
    cases ys with
    | nil => rfl
    | cons y ys =>
      exact absurd (mem_of_ties List.mem_cons_self fun r => (h r).symm) List.not_mem_nil
  | cons x xs ih =>
    cases ys with
    | nil => exact absurd (mem_of_ties List.mem_cons_self h) List.not_mem_nil
    | cons y ys =>
      -- The first elements tie, so they are the first of what ties with them.
      have hxy := isLE_first hxs (mem_of_ties List.mem_cons_self fun r => (h r).symm)
      have hyx := isLE_first hys (mem_of_ties List.mem_cons_self h)
      have htie := Std.OrientedCmp.isLE_antisymm hxy hyx
      have hself : cmp (rank y) (rank y) = .eq := Std.ReflCmp.compare_self
      have hfirst := h (rank y)
      simp only [List.filter_cons, htie, hself, beq_self_eq_true, if_true] at hfirst
      obtain rfl := (List.cons.inj hfirst).1
      refine congrArg (x :: ·) (ih hxs.of_cons hys.of_cons fun r => ?_)
      have hr := h r
      rw [List.filter_cons, List.filter_cons] at hr
      split_ifs at hr
      · exact (List.cons.inj hr).2
      · exact hr

/-! ## Sorting -/

section

variable (hle : ∀ x y, le x y = (cmp (rank x) (rank y)).isLE)

include hle

theorem le_trans (x y z : α) (hxy : le x y = true) (hyz : le y z = true) : le x z = true := by
  rw [hle] at *
  exact Std.TransCmp.isLE_trans hxy hyz

theorem le_total (x y : α) : (le x y || le y x) = true := by
  have hswap : cmp (rank x) (rank y) = (cmp (rank y) (rank x)).swap := Std.OrientedCmp.eq_swap
  rw [hle, hle, hswap]
  cases cmp (rank y) (rank x) <;> rfl

/-- **A sorted list is in order.** -/
theorem pairwise_mergeSort (xs : List α) :
    (xs.mergeSort le).Pairwise fun x y => (cmp (rank x) (rank y)).isLE = true := by
  simp only [← hle]
  exact List.pairwise_mergeSort (le_trans hle) (le_total hle) xs

/-- Elements that tie with one rank may stand in any order. -/
theorem pairwise_ties (r : κ) (xs : List α) :
    (xs.filter fun x => cmp (rank x) r == .eq).Pairwise fun x y => le x y = true := by
  rw [List.pairwise_filter]
  refine List.pairwise_of_forall fun x y hx hy => ?_
  have hr : cmp r (rank y) = .eq := Std.OrientedCmp.eq_comm.mp (beq_iff_eq.mp hy)
  rw [hle, Std.TransCmp.eq_trans (beq_iff_eq.mp hx) hr]
  rfl

/-- **Sorting is stable**: what ties with a rank keeps its order. -/
theorem filter_mergeSort (r : κ) (xs : List α) :
    ((xs.mergeSort le).filter fun x => cmp (rank x) r == .eq) =
      xs.filter fun x => cmp (rank x) r == .eq := by
  -- What ties is sorted as it stands, so it is a sublist of the sorted list, and of equal length.
  have hsub := (List.sublist_mergeSort (le_trans hle) (le_total hle) (pairwise_ties hle r xs)
    List.filter_sublist).filter fun x => cmp (rank x) r == .eq
  have hlen := ((List.mergeSort_perm xs le).filter fun x => cmp (rank x) r == .eq).length_eq
  rw [List.filter_filter] at hsub
  simp only [Bool.and_self] at hsub
  exact (hsub.eq_of_length hlen.symm).symm

/-- **Elements may be left out before sorting or after.** -/
theorem mergeSort_filter (p : α → Bool) (xs : List α) :
    (xs.filter p).mergeSort le = (xs.mergeSort le).filter p := by
  refine eq_of_ties (pairwise_mergeSort hle _) ((pairwise_mergeSort hle xs).filter p) fun r => ?_
  rw [filter_mergeSort hle, List.filter_comm, ← filter_mergeSort hle r xs, List.filter_comm]

/-! ## The order of arrival -/

/-- The elements that tie stand at the front of a sorted list of them as they came in. -/
theorem eq_of_mergeSort_eq {x y : α} {rest : List α} (htie : rank x = rank y)
    (h : (x :: y :: rest).mergeSort le = (y :: x :: rest).mergeSort le) : x = y := by
  have hself : cmp (rank y) (rank y) = .eq := Std.ReflCmp.compare_self
  have hties := congrArg (List.filter fun z => cmp (rank z) (rank y) == .eq) h
  rw [filter_mergeSort hle, filter_mergeSort hle] at hties
  simp only [List.filter_cons, htie, hself, beq_self_eq_true, if_true, List.cons.injEq] at hties
  exact hties.1

variable [Std.LawfulEqCmp cmp]

/-- Sorting forgets the order of a list, when the elements that tie are equal. -/
theorem mergeSort_congr {xs ys : List α} (hties : ∀ x ∈ xs, ∀ y ∈ xs, rank x = rank y → x = y)
    (h : xs.Perm ys) : xs.mergeSort le = ys.mergeSort le := by
  have hperm := (List.mergeSort_perm xs le).trans (h.trans (List.mergeSort_perm ys le).symm)
  refine hperm.eq_of_pairwise ?_ (pairwise_mergeSort hle xs) (pairwise_mergeSort hle ys)
  intro x y hx hy hxy hyx
  rw [List.mem_mergeSort] at hx hy
  exact hties x hx y (h.mem_iff.mpr hy)
    (Std.LawfulEqCmp.eq_of_compare (Std.OrientedCmp.isLE_antisymm hxy hyx))

/-- **Sorting forgets the order of a list** iff the elements that tie are equal. -/
theorem mergeSort_congr_iff {xs : List α} :
    (∀ ys, xs.Perm ys → xs.mergeSort le = ys.mergeSort le) ↔
      ∀ x ∈ xs, ∀ y ∈ xs, rank x = rank y → x = y := by
  constructor
  · intro h x hx y hy htie
    by_contra hne
    -- Bring the two to the front, in either order.
    classical
    have hfront : xs.Perm (x :: y :: (xs.erase x).erase y) := by
      refine (List.perm_cons_erase hx).trans (List.Perm.cons x (List.perm_cons_erase ?_))
      exact (List.mem_erase_of_ne (Ne.symm hne)).mpr hy
    have hswap := hfront.trans (List.Perm.swap y x _)
    exact hne (eq_of_mergeSort_eq hle htie ((h _ hfront).symm.trans (h _ hswap)))
  · intro hties ys h
    exact mergeSort_congr hle hties h

/-- Whatever ties, the ranks of a sorted list do not depend on the order of the list. -/
theorem map_mergeSort_congr {xs ys : List α} (h : (xs.map rank).Perm (ys.map rank)) :
    (xs.mergeSort le).map rank = (ys.mergeSort le).map rank := by
  have hsorted : ∀ zs : List α,
      (zs.mergeSort le).map rank = (zs.map rank).mergeSort fun x y => (cmp x y).isLE := by
    intro zs
    exact List.map_mergeSort fun x _ y _ => hle x y
  have hid : ∀ x y, (cmp x y).isLE = (cmp (id x) (id y)).isLE := fun _ _ => rfl
  rw [hsorted xs, hsorted ys]
  exact mergeSort_congr hid (fun _ _ _ _ htie => htie) h

end

/-! ## Cutting a sorted list -/

/-- A list in which everything that satisfies a condition stands before everything that does not is
cut in two by the condition. -/
theorem filter_append_filter_not {p : α → Bool} {xs : List α}
    (h : xs.Pairwise fun x y => p y = true → p x = true) :
    (xs.filter p ++ xs.filter fun x => !p x) = xs := by
  induction xs with
  | nil => rfl
  | cons x xs ih =>
    obtain ⟨hx, hxs⟩ := List.pairwise_cons.mp h
    by_cases hp : p x = true
    · simp [hp, ih hxs]
    · have hnone : xs.filter p = [] := List.filter_eq_nil_iff.mpr fun y hy hpy => hp (hx y hy hpy)
      have hrest := ih hxs
      rw [hnone, List.nil_append] at hrest
      simp [hp, hnone, hrest]

end Dataflow.Sorting
