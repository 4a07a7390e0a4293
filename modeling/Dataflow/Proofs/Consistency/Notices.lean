import Dataflow.Consistency
import Dataflow.Proofs.Keyed

/-!
# What there are notices about

* `IsLast methods method`: the method is the last of its signature.

Results:
* `methodOf?_eq_some_iff`: the method that counts for a signature is the last one.
* `map_signature_notices_sublist`: there is at most one notice for each key of the models, and they
  are in the order of the keys.
* `missingMethod_mem_notices_iff`, `inconsistentSupported_mem_notices_iff`: which notices there are.
-/

namespace Dataflow.Consistency

variable {methods : List Method} {method : Method} {models : ModelIndex}
  {entry : List ModeledMethod} {signature : String} {expected : Bool} {notice : Notice}

/-! ## The last method of a signature -/

/-- No later method has the signature of a method. -/
def IsLast (methods : List Method) (method : Method) : Prop :=
  ∃ before after, methods = before ++ method :: after ∧
    ∀ later ∈ after, later.signature ≠ method.signature

theorem methodOf?_eq_find? (methods : List Method) (signature : String) :
    methodOf? methods signature =
      methods.reverse.find? fun method => method.signature == signature :=
  List.findRev?_eq_find?_reverse

theorem methodOf?_eq_none_iff :
    methodOf? methods signature = none ↔ ∀ method ∈ methods, method.signature ≠ signature := by
  simp [methodOf?_eq_find?]

theorem methodOf?_eq_some_iff :
    methodOf? methods signature = some method ↔
      method.signature = signature ∧ IsLast methods method := by
  rw [methodOf?_eq_find?, List.find?_eq_some_iff_append, beq_iff_eq]
  refine and_congr_right fun hsignature => ?_
  subst hsignature
  constructor
  · rintro ⟨after, before, hsplit, hlater⟩
    refine ⟨before.reverse, after.reverse, ?_, fun later hmem => ?_⟩
    · rw [← List.reverse_reverse methods, hsplit]
      simp
    · simpa using hlater later (List.mem_reverse.mp hmem)
  · rintro ⟨before, after, rfl, hlater⟩
    refine ⟨after.reverse, before.reverse, by simp, fun later hmem => ?_⟩
    simpa using hlater later (List.mem_reverse.mp hmem)

/-- A change that leaves signatures alone changes the last method as it does the others. -/
theorem methodOf?_map {f : Method → Method} (hf : ∀ method, (f method).signature = method.signature)
    (methods : List Method) (signature : String) :
    methodOf? (methods.map f) signature = (methodOf? methods signature).map f := by
  rw [methodOf?_eq_find?, methodOf?_eq_find?, ← List.map_reverse, List.find?_map]
  simp only [Function.comp_def, hf]

/-! ## What models say -/

theorem supportsMethod_iff {model : Model} :
    model.supportsMethod = true ↔ model.variant ≠ .none ∧ model.variant ≠ .type := by
  simp [Model.supportsMethod]

theorem expectedSupported_iff :
    expectedSupported entry = true ↔
      ∃ modeled ∈ entry, modeled.variant ≠ .none ∧ modeled.variant ≠ .type := by
  unfold expectedSupported
  simp only [List.any_eq_true, supportsMethod_iff]
  rfl

/-! ## Notices about one signature -/

theorem signature_of_notice? (h : notice? methods signature entry = some notice) :
    notice.signature = signature := by
  unfold notice? at h
  split at h
  · obtain rfl := Option.some.inj h
    rfl
  · simp only at h
    split at h
    · exact absurd h (by simp)
    · obtain rfl := Option.some.inj h
      rfl

theorem notice?_eq_missingMethod_iff :
    notice? methods signature entry = some (.missingMethod signature) ↔
      ∀ method ∈ methods, method.signature ≠ signature := by
  rw [← methodOf?_eq_none_iff]
  unfold notice?
  cases methodOf? methods signature with
  | none => simp
  | some method =>
    simp only
    split <;> simp

theorem notice?_eq_inconsistentSupported_iff :
    notice? methods signature entry = some (.inconsistentSupported signature expected) ↔
      expectedSupported entry = expected ∧
        ∃ last, methodOf? methods signature = some last ∧ expected ≠ last.supported := by
  unfold notice?
  cases methodOf? methods signature with
  | none => simp
  | some method =>
    simp only
    split_ifs with hagree
    · simp only [Option.some.injEq, exists_eq_left', false_iff, not_and]
      rintro rfl
      exact not_not.mpr hagree
    · simp only [Option.some.injEq, Notice.inconsistentSupported.injEq, true_and, exists_eq_left']
      refine (and_iff_left_of_imp ?_).symm
      rintro rfl
      exact hagree

/-! ## Notices about all signatures -/

theorem mem_notices_iff :
    notice ∈ notices methods models ↔
      ∃ entry, (notice.signature, entry) ∈ models ∧
        notice? methods notice.signature entry = some notice := by
  unfold notices
  simp only [List.mem_filterMap, Prod.exists]
  constructor
  · rintro ⟨signature, entry, hentry, hnotice⟩
    obtain rfl := signature_of_notice? hnotice
    exact ⟨entry, hentry, hnotice⟩
  · rintro ⟨entry, hentry, hnotice⟩
    exact ⟨notice.signature, entry, hentry, hnotice⟩

/-- There is at most one notice for each key, and they are in the order of the keys. -/
theorem map_signature_notices_sublist (methods : List Method) (models : ModelIndex) :
    ((notices methods models).map Notice.signature).Sublist models.keys := by
  induction models with
  | nil => exact List.Sublist.refl _
  | cons first models ih =>
    unfold notices at ih ⊢
    rw [List.filterMap_cons]
    split
    · exact ih.cons _
    · rename_i notice hnotice
      rw [List.map_cons, signature_of_notice? hnotice]
      exact ih.cons_cons _

theorem pairwise_notices (h : Keyed.Ordered models) :
    ((notices methods models).map Notice.signature).Pairwise (· < ·) :=
  List.Pairwise.sublist (map_signature_notices_sublist methods models) h

/-- **A method is missing** iff its signature has an entry of models and no method has it. -/
theorem missingMethod_mem_notices_iff :
    .missingMethod signature ∈ notices methods models ↔
      signature ∈ models.keys ∧ ∀ method ∈ methods, method.signature ≠ signature := by
  rw [mem_notices_iff]
  simp only [Notice.signature, notice?_eq_missingMethod_iff, exists_and_right]
  refine and_congr_left fun _ => ?_
  simp [Keyed.keys]

/-- **A mark is inconsistent** iff the last method of the signature is marked otherwise than the
models of the entry say. -/
theorem inconsistentSupported_mem_notices_iff :
    .inconsistentSupported signature expected ∈ notices methods models ↔
      ∃ entry, (signature, entry) ∈ models ∧ expectedSupported entry = expected ∧
        ∃ last, methodOf? methods signature = some last ∧ expected ≠ last.supported := by
  rw [mem_notices_iff]
  simp only [Notice.signature, notice?_eq_inconsistentSupported_iff]

end Dataflow.Consistency
