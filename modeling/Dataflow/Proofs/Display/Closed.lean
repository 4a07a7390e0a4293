import Dataflow.Proofs.Consistency.Notices
import Dataflow.Proofs.Display.Order

/-!
# Which methods are closed

A method that is not open is closed; closed methods are in the last bucket. Where there is no
notice, the models of a supported method include one that supports it, and so the method is open.

Results:
* `Progress.sortMethods_eq_append`: in display order closed methods come last.
* `Progress.hasModel_iff_mem_keys`: in a consistent state a supported method with an entry has a
  model.
* `Progress.sortMethods_closed`: in a consistent state the closed methods are those that are
  supported, have no entry of models and no unsaved edits.
-/

namespace Dataflow

/-! ## Consistent marks -/

namespace Consistency

variable {methods : List Method} {method : Method} {models : ModelIndex}
  {entry : List ModeledMethod}

/-- Where signatures are distinct, each method is the last of its own. -/
theorem methodOf?_of_mem (hdistinct : (methods.map Method.signature).Nodup)
    (h : method ∈ methods) : methodOf? methods method.signature = some method := by
  obtain ⟨before, after, rfl⟩ := List.append_of_mem h
  refine methodOf?_eq_some_iff.mpr ⟨rfl, before, after, rfl, fun later hlater hsame => ?_⟩
  rw [List.map_append, List.map_cons, List.nodup_append, List.nodup_cons] at hdistinct
  exact hdistinct.2.1.1 (hsame ▸ List.mem_map_of_mem hlater)

/-- **Without a notice, models say what the mark says.** -/
theorem expectedSupported_of_consistent (hconsistent : notices methods models = [])
    (hdistinct : (methods.map Method.signature).Nodup) (hmethod : method ∈ methods)
    (hentry : (method.signature, entry) ∈ models) :
    expectedSupported entry = method.supported := by
  by_contra hdiffers
  have hnotice : .inconsistentSupported method.signature (expectedSupported entry) ∈
      notices methods models :=
    inconsistentSupported_mem_notices_iff.mpr
      ⟨entry, hentry, rfl, method, methodOf?_of_mem hdistinct hmethod, hdiffers⟩
  rw [hconsistent] at hnotice
  exact List.not_mem_nil hnotice

end Consistency

namespace Display.Progress

variable {progress : Progress} {methods : List Method} {method : Method} {signature : String}

/-! ## The last bucket -/

theorem isOpen_eq_false_iff :
    progress.isOpen method = false ↔
      method.supported = true ∧ progress.hasModel method.signature = false ∧
        method.signature ∉ progress.unsaved := by
  simp [isOpen, and_assoc]

/-- Display order goes by buckets first. -/
theorem bucket_le_of_isLE {a b : Method} (h : (progress.compareMethods a b).isLE = true) :
    progress.bucket a ≤ progress.bucket b := by
  unfold compareMethods at h
  rw [Ordering.isLE_then_iff_or] at h
  rcases h with h | ⟨h, -⟩
  · exact (compare_lt_iff_lt.mp h).le
  · exact (compare_eq_iff_eq.mp h).le

/-- **Closed methods come last** in display order. -/
theorem sortMethods_eq_append (progress : Progress) (methods : List Method) :
    ((progress.sortMethods methods).filter progress.isOpen ++
      (progress.sortMethods methods).filter fun method => !progress.isOpen method) =
      progress.sortMethods methods := by
  refine Sorting.filter_append_filter_not ?_
  have hsorted := Sorting.pairwise_mergeSort
    (fun a b => congrArg Ordering.isLE (progress.compareMethods_eq a b)) methods
  refine hsorted.imp fun {a b} hle hopen => ?_
  by_contra hclosed
  have ha := bucket_eq_four_iff.mpr (Bool.not_eq_true _ ▸ hclosed)
  have hb := bucket_eq_four_iff.not.mpr (by rw [hopen]; decide)
  have hbucket := bucket_le_of_isLE hle
  have hlast := bucket_le_four progress b
  omega

/-! ## Entries of models -/

theorem hasModel_iff :
    progress.hasModel signature = true ↔
      ∃ entry, progress.models.get? signature = some entry ∧
        ∃ modeled ∈ entry, modeled.model.isModeled = true := by
  unfold hasModel
  cases progress.models.get? signature <;> simp

theorem isModeled_of_supportsMethod {model : Model} (h : model.supportsMethod = true) :
    model.isModeled = true := by
  unfold Model.supportsMethod at h
  exact (Bool.and_eq_true_iff.mp h).1

/-- **In a consistent state** a supported method with an entry of models has a model. -/
theorem hasModel_iff_mem_keys
    (hconsistent : Consistency.notices methods progress.models = [])
    (hdistinct : (methods.map Method.signature).Nodup) (hmethod : method ∈ methods)
    (hsupported : method.supported = true) :
    progress.hasModel method.signature = true ↔ method.signature ∈ progress.models.keys := by
  rw [hasModel_iff]
  constructor
  · rintro ⟨entry, hentry, -⟩
    exact List.mem_map_of_mem (Keyed.mem_of_get?_eq_some hentry)
  · intro hkey
    have hsome : progress.models.get? method.signature ≠ none :=
      fun hnone => Keyed.get?_eq_none_iff.mp hnone hkey
    obtain ⟨entry, hentry⟩ := Option.ne_none_iff_exists'.mp hsome
    have hexpected := Consistency.expectedSupported_of_consistent hconsistent hdistinct hmethod
      (Keyed.mem_of_get?_eq_some hentry)
    rw [hsupported] at hexpected
    obtain ⟨modeled, hmodeled, hsupports⟩ := List.any_eq_true.mp hexpected
    exact ⟨entry, hentry, modeled, hmodeled, isModeled_of_supportsMethod hsupports⟩

/-- **In a consistent state no method with models is closed.** Display order is first the open
methods and then, in the last bucket, those that are supported and have no entry of models and no
unsaved edits. -/
theorem sortMethods_closed (progress : Progress) (methods : List Method)
    (hdistinct : (methods.map Method.signature).Nodup)
    (hconsistent : Consistency.notices methods progress.models = []) :
    ∃ opened closed, progress.sortMethods methods = opened ++ closed ∧
      (∀ method ∈ opened, progress.isOpen method = true ∧ progress.bucket method < 4) ∧
      (∀ method ∈ closed, progress.isOpen method = false ∧ progress.bucket method = 4) ∧
      ∀ method, method ∈ closed ↔
        method ∈ methods ∧ method.supported = true ∧
          method.signature ∉ progress.models.keys ∧ method.signature ∉ progress.unsaved := by
  refine ⟨_, _, (sortMethods_eq_append progress methods).symm, fun method hmethod => ?_,
    fun method hmethod => ?_, fun method => ?_⟩
  · have hopen := (List.mem_filter.mp hmethod).2
    have hbucket := bucket_eq_four_iff.not.mpr (Bool.not_eq_false _ ▸ hopen)
    exact ⟨hopen, lt_of_le_of_ne (bucket_le_four progress method) hbucket⟩
  · have hclosed := Bool.not_eq_true' _ ▸ (List.mem_filter.mp hmethod).2
    exact ⟨hclosed, bucket_eq_four_iff.mpr hclosed⟩
  · rw [List.mem_filter, Bool.not_eq_true', isOpen_eq_false_iff]
    unfold sortMethods
    rw [List.mem_mergeSort]
    refine and_congr_right fun hmethod => and_congr_right fun hsupported =>
      and_congr_left fun _ => ?_
    rw [← Bool.not_eq_true, hasModel_iff_mem_keys hconsistent hdistinct hmethod hsupported]

/-- Both methods are supported, the query through its sink and the logger by the analysis alone. -/
theorem sortMethods_closed_logger :
    let query : Method :=
      { identity := ⟨"org.sql2o", "Connection", "createQuery", "(String)", .method,
          "org.sql2o.Connection#createQuery(String)"⟩
        library := "sql2o", libraryVersion := some "1.6.0", supported := true
        supportedType := .sink, usages := [], endpointKind := none }
    let logger : Method :=
      { query with
        identity := ⟨"org.slf4j", "Logger", "info", "(String)", .method,
          "org.slf4j.Logger#info(String)"⟩
        library := "slf4j" }
    let progress : Progress :=
      ⟨[(query.signature, [⟨query.identity, .sink "Argument[0]" "sql-injection" .manual⟩])], [], []⟩
    ([logger, query].map Method.signature).Nodup ∧
      Consistency.notices [logger, query] progress.models = [] ∧
      ∃ opened closed, progress.sortMethods [logger, query] = opened ++ closed ∧
        logger ∈ closed ∧ query ∉ closed := by
  intro query logger progress
  have hdistinct : ([logger, query].map Method.signature).Nodup := by decide
  have hconsistent : Consistency.notices [logger, query] progress.models = [] := by decide
  obtain ⟨opened, closed, hsorted, -, -, hclosed⟩ :=
    sortMethods_closed progress [logger, query] hdistinct hconsistent
  refine ⟨hdistinct, hconsistent, opened, closed, hsorted, (hclosed logger).mpr ?_,
    fun hquery => ?_⟩
  · exact ⟨List.mem_cons_self, rfl, by decide, List.not_mem_nil⟩
  · exact absurd ((hclosed query).mp hquery).2.2.1 (by decide)

end Display.Progress

end Dataflow
