import Dataflow.Proofs.Display.Order

/-!
# What the order of arrival decides

Methods tie when they have one rank, and those that tie stay in the order they came in.

* `Progress.Ties progress a b`: the methods have one signature, are used as often and are both open
  or both closed.

Results:
* `Progress.rank_eq_iff`: methods of one rank are methods that tie.
* `sortMethods_arrival_iff`: the ranks in display order do not depend on the order that the methods
  came in. The methods do, unless those that tie are equal.
-/

namespace Dataflow.Display.Progress

variable {progress : Progress} {a b : Method}

/-- Methods that nothing but the order of arrival sets apart. -/
structure Ties (progress : Progress) (a b : Method) : Prop where
  signature : a.signature = b.signature
  usages : a.usageCount = b.usageCount
  isOpen : progress.isOpen a = progress.isOpen b

/-- Methods of one signature are in one bucket when they are both open or both closed. -/
theorem bucket_eq_of_isOpen_eq (hsignature : a.signature = b.signature)
    (hopen : progress.isOpen a = progress.isOpen b) : progress.bucket a = progress.bucket b := by
  unfold bucket
  rw [hsignature, hopen]

/-- **Methods of one rank** are methods that tie. -/
theorem rank_eq_iff : progress.rank a = progress.rank b ↔ progress.Ties a b := by
  constructor
  · intro h
    obtain ⟨hbucket, husages, hsignature⟩ := MethodRank.mk.inj h
    refine ⟨hsignature, husages, Bool.eq_iff_iff.mpr (not_iff_not.mp ?_)⟩
    rw [Bool.not_eq_true, Bool.not_eq_true, ← bucket_eq_four_iff, ← bucket_eq_four_iff, hbucket]
  · intro h
    unfold rank
    rw [bucket_eq_of_isOpen_eq h.signature h.isOpen, h.usages, h.signature]

/-- **What the order of arrival decides.** In display order the ranks of the methods are the same
for every order that the methods came in. The methods themselves are iff those that tie are
equal. -/
theorem sortMethods_arrival_iff (progress : Progress) (methods : List Method) :
    (∀ others, methods.Perm others →
      (progress.sortMethods methods).map progress.rank =
        (progress.sortMethods others).map progress.rank) ∧
    ((∀ others, methods.Perm others →
        progress.sortMethods methods = progress.sortMethods others) ↔
      ∀ a ∈ methods, ∀ b ∈ methods, progress.Ties a b → a = b) := by
  refine ⟨fun others h => progress.ranks_congr (h.map progress.rank), ?_⟩
  simp only [← rank_eq_iff]
  exact Sorting.mergeSort_congr_iff
    fun a b => congrArg Ordering.isLE (progress.compareMethods_eq a b)

/-- Two methods that are used as often are told apart by their signatures. -/
theorem sortMethods_arrival_logger :
    let query : Method :=
      { identity := ⟨"org.sql2o", "Connection", "createQuery", "(String)", .method,
          "org.sql2o.Connection#createQuery(String)"⟩
        library := "sql2o", libraryVersion := some "1.6.0", supported := false
        supportedType := .none, usages := [], endpointKind := none }
    let logger : Method :=
      { query with
        identity := ⟨"org.slf4j", "Logger", "info", "(String)", .method,
          "org.slf4j.Logger#info(String)"⟩
        library := "slf4j" }
    let progress : Progress := ⟨[], ["org.slf4j.Logger#info(String)"], []⟩
    [query, logger].Perm [logger, query] ∧
      progress.sortMethods [query, logger] = progress.sortMethods [logger, query] := by
  intro query logger progress
  have hperm : [query, logger].Perm [logger, query] := by decide
  refine ⟨hperm, (sortMethods_arrival_iff progress [query, logger]).2.mpr ?_ _ hperm⟩
  have hne : query.signature ≠ logger.signature := by decide
  intro a ha b hb h
  simp only [List.mem_cons, List.not_mem_nil, or_false] at ha hb
  rcases ha with rfl | rfl <;> rcases hb with rfl | rfl
  · rfl
  · exact absurd h.signature hne
  · exact absurd h.signature hne.symm
  · rfl

/-- **Display order does depend on the order of arrival**: one method of two versions of a library
is shown as it came in. -/
theorem sortMethods_versions_ne :
    let older : Method :=
      { identity := ⟨"org.sql2o", "Connection", "createQuery", "(String)", .method,
          "org.sql2o.Connection#createQuery(String)"⟩
        library := "sql2o-1.5.0", libraryVersion := none, supported := false
        supportedType := .none, usages := [], endpointKind := none }
    let newer : Method := { older with library := "sql2o-1.6.0" }
    let progress : Progress := ⟨[], [], []⟩
    [newer, older].Perm [older, newer] ∧
      progress.sortMethods [newer, older] ≠ progress.sortMethods [older, newer] := by
  intro older newer progress
  have hnewer : progress.sortMethods [newer, older] = [newer, older] :=
    List.mergeSort_of_pairwise (by decide)
  have holder : progress.sortMethods [older, newer] = [older, newer] :=
    List.mergeSort_of_pairwise (by decide)
  refine ⟨by decide, ?_⟩
  rw [hnewer, holder]
  decide

end Dataflow.Display.Progress
