import Dataflow.Proofs.Consistency.Notices
import Dataflow.Session

/-!
# Settling the disagreements of a session

* `Notice.repair notice`: the step that settles a disagreement. The models of a missing method are
  dropped, and the methods of a signature are marked as its models say.
* `Session.reconciled session`: the session after the steps for all its disagreements.

Results:
* `Session.ordered_apply`: the models stay a table in every step.
* `Session.notices_apply_repair`: a step settles the disagreement that it is for and leaves the
  others.
* `notices_exact`: the notices are about the disagreements, in the order of their signatures, and
  there are none after the steps for all of them.
-/

namespace Dataflow

/-- The disagreements of a session. -/
def Session.notices (session : Session) : List Consistency.Notice :=
  Consistency.notices session.methods session.progress.models

namespace Consistency

/-- The step that settles a disagreement. -/
def Notice.repair : Notice → Session.Step
  | missingMethod signature => .clear signature
  | inconsistentSupported signature expectedSupported => .support signature expectedSupported

/-! ## Marking methods -/

/-- A method of the signature gets the mark. -/
def mark (signature : String) (supported : Bool) (method : Method) : Method :=
  if method.signature = signature then { method with supported } else method

section

variable {methods : List Method} {method : Method} {models : ModelIndex}
  {entry : List ModeledMethod} {signature other : String} {supported : Bool}

theorem signature_mark (method : Method) :
    (mark signature supported method).signature = method.signature := by
  unfold mark
  split <;> rfl

theorem supported_mark_self (h : method.signature = signature) :
    (mark signature supported method).supported = supported := by
  unfold mark
  rw [if_pos h]

theorem mark_of_ne (h : method.signature ≠ signature) : mark signature supported method = method :=
  if_neg h

theorem signature_of_methodOf? (h : methodOf? methods signature = some method) :
    method.signature = signature :=
  (methodOf?_eq_some_iff.mp h).1

/-- Marked as their models say, the methods of a signature agree with them. -/
theorem notice?_mark_self (h : methodOf? methods signature ≠ none) :
    notice? (methods.map (mark signature (expectedSupported entry))) signature entry = none := by
  obtain ⟨last, hlast⟩ := Option.ne_none_iff_exists'.mp h
  unfold notice?
  rw [methodOf?_map signature_mark, hlast, Option.map_some]
  simp [supported_mark_self (signature_of_methodOf? hlast)]

/-- Marking the methods of a signature does not concern the others. -/
theorem notice?_mark_of_ne (h : other ≠ signature) :
    notice? (methods.map (mark signature supported)) other entry =
      notice? methods other entry := by
  unfold notice?
  rw [methodOf?_map signature_mark]
  cases hlast : methodOf? methods other with
  | none => rfl
  | some last =>
    rw [← signature_of_methodOf? hlast] at h
    rw [Option.map_some, mark_of_ne h]

/-! ## One step -/

/-- The notices about all signatures but one. -/
theorem filter_notices (signature : String) :
    ((notices methods models).filter fun notice => notice.signature != signature) =
      models.filterMap fun entry =>
        if entry.1 != signature then notice? methods entry.1 entry.2 else none := by
  unfold notices
  rw [List.filter_filterMap]
  refine List.filterMap_congr fun ⟨key, entry⟩ _ => ?_
  simp only
  cases hnotice : notice? methods key entry with
  | none => simp
  | some notice => rw [Option.filter_some, signature_of_notice? hnotice]

/-- Dropping the models of a signature drops the notice about it. -/
theorem notices_erase (signature : String) :
    notices methods (models.erase signature) =
      (notices methods models).filter fun notice => notice.signature != signature := by
  rw [filter_notices]
  unfold notices Keyed.erase
  rw [List.filterMap_filter]

/-- Marking the methods of a signature as its models say drops the notice about it. -/
theorem notices_mark (hordered : Keyed.Ordered models) (hentry : (signature, entry) ∈ models)
    (hmethod : methodOf? methods signature ≠ none) :
    notices (methods.map (mark signature (expectedSupported entry))) models =
      (notices methods models).filter fun notice => notice.signature != signature := by
  rw [filter_notices]
  unfold notices
  refine List.filterMap_congr fun ⟨other, models⟩ hother => ?_
  by_cases hsame : other = signature
  · subst hsame
    obtain rfl := hordered.value_unique hentry hother
    simp [notice?_mark_self hmethod]
  · simp [hsame, notice?_mark_of_ne hsame]

end

end Consistency

namespace Session

open Consistency (Notice)

variable {session : Session} {notice : Notice}

/-- **The models stay a table** in every step. -/
theorem ordered_apply (step : Step) (h : Keyed.Ordered session.progress.models) :
    Keyed.Ordered (session.apply step).progress.models := by
  cases step with
  | add modeled => exact h.update _ _
  | clear signature => exact h.erase signature
  | modify signature => exact h
  | save => exact h
  | auto signature => exact h
  | support signature supported => exact h

/-- **A step settles the disagreement that it is for** and leaves the others. -/
theorem notices_apply_repair (hordered : Keyed.Ordered session.progress.models)
    (h : notice ∈ session.notices) :
    (session.apply notice.repair).notices =
      session.notices.filter fun other => other.signature != notice.signature := by
  cases notice with
  | missingMethod signature => exact Consistency.notices_erase signature
  | inconsistentSupported signature supported =>
    obtain ⟨entry, hentry, rfl, last, hlast, -⟩ :=
      Consistency.inconsistentSupported_mem_notices_iff.mp h
    exact Consistency.notices_mark hordered hentry (by simp [hlast])

/-- The session after the steps for all its disagreements. -/
def reconciled (session : Session) : Session :=
  session.notices.foldl (fun session notice => session.apply notice.repair) session

/-- After the steps for all disagreements there are none. -/
theorem notices_foldl_apply (found : List Notice) :
    ∀ session : Session, Keyed.Ordered session.progress.models → session.notices = found →
      (found.foldl (fun session notice => session.apply notice.repair) session).notices = [] := by
  induction found with
  | nil => exact fun _ _ h => h
  | cons notice found ih =>
    intro session hordered h
    refine ih _ (ordered_apply _ hordered) ?_
    -- The signatures increase, so the other disagreements are about other ones.
    have hlater : (session.notices.map Notice.signature).Pairwise (· < ·) :=
      Consistency.pairwise_notices hordered
    rw [h, List.map_cons, List.pairwise_cons] at hlater
    rw [notices_apply_repair hordered (h ▸ List.mem_cons_self), h,
      List.filter_cons_of_neg (by simp)]
    refine List.filter_eq_self.mpr fun other hother => ?_
    rw [bne_iff_ne]
    exact (hlater.1 other.signature (List.mem_map_of_mem hother)).ne'

end Session

namespace Consistency

open Session

/-- **Notices are exact, and acting on them silences them.** They are in the order of their
signatures, with at most one for each. A method is missing iff an entry of models has no method of
its signature. A mark is inconsistent iff it is what the models of an entry do not say, where the
last method of the signature counts. After the steps for all of them there is no notice. -/
theorem notices_exact (session : Session) (hordered : Keyed.Ordered session.progress.models) :
    (session.notices.map Notice.signature).Pairwise (· < ·) ∧
    (∀ signature, .missingMethod signature ∈ session.notices ↔
      signature ∈ session.progress.models.keys ∧
        ∀ method ∈ session.methods, method.signature ≠ signature) ∧
    (∀ signature expected, .inconsistentSupported signature expected ∈ session.notices ↔
      ∃ entry last, (signature, entry) ∈ session.progress.models ∧
        last.signature = signature ∧ IsLast session.methods last ∧
        (expected = true ↔ ∃ modeled ∈ entry, modeled.variant ≠ .none ∧ modeled.variant ≠ .type) ∧
        expected ≠ last.supported) ∧
    session.reconciled.notices = [] := by
  refine ⟨pairwise_notices hordered, fun signature => missingMethod_mem_notices_iff,
    fun signature expected => ?_, notices_foldl_apply _ session hordered rfl⟩
  refine inconsistentSupported_mem_notices_iff.trans ?_
  have hexpected : ∀ entry, expectedSupported entry = expected ↔ (expected = true ↔
      ∃ modeled ∈ entry, modeled.variant ≠ .none ∧ modeled.variant ≠ .type) := by
    intro entry
    rw [← expectedSupported_iff, ← Bool.eq_iff_iff, eq_comm]
  simp only [hexpected, methodOf?_eq_some_iff]
  constructor
  · rintro ⟨entry, hentry, hsays, last, ⟨hsignature, hlast⟩, hdiffers⟩
    exact ⟨entry, last, hentry, hsignature, hlast, hsays, hdiffers⟩
  · rintro ⟨entry, last, hentry, hsignature, hlast, hsays, hdiffers⟩
    exact ⟨entry, hentry, hsays, last, ⟨hsignature, hlast⟩, hdiffers⟩

/-- Of two versions of a method the later one is listed as not supported, although the method has a
sink; the models of the logger are left from a method that is gone. -/
theorem notices_exact_versions :
    let identity : Identity := ⟨"org.sql2o", "Connection", "createQuery", "(String)", .method,
      "org.sql2o.Connection#createQuery(String)"⟩
    let older : Method :=
      { identity, library := "sql2o", libraryVersion := some "1.5.0", supported := true
        supportedType := .sink, usages := [], endpointKind := none }
    let newer : Method := { older with libraryVersion := some "1.6.0", supported := false }
    let session : Session :=
      ⟨[older, newer], [("org.slf4j.Logger#info(String)", []),
        ("org.sql2o.Connection#createQuery(String)",
          [⟨identity, .sink "Argument[0]" "sql-injection" .manual⟩])], [], []⟩
    Keyed.Ordered session.progress.models ∧
      .missingMethod "org.slf4j.Logger#info(String)" ∈ session.notices ∧
      .inconsistentSupported "org.sql2o.Connection#createQuery(String)" true ∈ session.notices ∧
      session.reconciled.notices = [] := by
  intro identity older newer session
  have hordered : Keyed.Ordered session.progress.models := by
    unfold Keyed.Ordered
    decide
  obtain ⟨-, hmissing, hinconsistent, hreconciled⟩ := notices_exact session hordered
  refine ⟨hordered, (hmissing _).mpr ⟨by decide, by decide⟩, (hinconsistent _ _).mpr ?_,
    hreconciled⟩
  exact ⟨_, newer, List.mem_cons_of_mem _ List.mem_cons_self, rfl,
    ⟨[older], [], rfl, by simp⟩, by simp [ModeledMethod.variant, Model.variant], by decide⟩

end Consistency

end Dataflow
