import Dataflow.Proofs.Json.Text
import Dataflow.Proofs.Wire.Record

/-!
# What is written as JSON is read back

A value is written as a JSON value, and this as a text. The reader of texts takes integers of 64
bits and does not go deeper than `Json.maxNesting`, so texts are read back within these limits only.

* `Restored write read x`: a value is read back from its JSON value and from its text.
* `Row.Integral`: the numbers of a row are integers of 64 bits.
* `Completion.depth`: the number of levels of a completion. Each but the last takes two levels of
  JSON, an object and an array.

Results:
* `Legible` of what is written of each type.
* `written_restored`: methods, modeled methods, notices and findings are restored, and so are rows
  and completions within the limits of texts; as JSON values these are read back whatever they are.
-/

namespace Dataflow

open Json (Legible)

/-! ## Legible records -/

namespace Json

theorem fitsWord_natCast {n : Nat} (h : n < UInt64.size) : fitsWord n = true := by
  have hlow : -Int.pow 2 63 ≤ (n : Int) := Int.le_trans (by decide) (Int.natCast_nonneg n)
  have hhigh : (n : Int) < Int.pow 2 64 := Int.ofNat_lt.mpr h
  unfold fitsWord
  rw [decide_eq_true hlow, decide_eq_true hhigh]
  rfl

theorem legible_ofNat {room n : Nat} (h : n < UInt64.size) : Legible room (.ofNat n) :=
  .integer (fitsWord_natCast h)

theorem legible_optionalEntry {α : Type} {room : Nat} {write : α → Json} (name : String)
    (h : ∀ x, Legible room (write x)) (value : Option α) :
    ∀ entry ∈ optionalEntry name write value, Legible room entry.2 := by
  cases value with
  | none => exact fun entry hentry => absurd hentry List.not_mem_nil
  | some x =>
    intro entry hentry
    rw [List.mem_singleton.mp hentry]
    exact h x

theorem legible_ofList {α : Type} {room : Nat} {write : α → Json} (h : ∀ x, Legible room (write x))
    (xs : List α) : Legible (room + 1) (ofList write xs) := by
  refine .array fun item hitem => ?_
  obtain ⟨x, -, rfl⟩ := List.mem_map.mp hitem
  exact h x

end Json

theorem Identity.legible_entries {room : Nat} (identity : Identity) :
    ∀ entry ∈ identity.entries, Legible room entry.2 := by
  simp [entries, Json.ofNamed, Legible.string]

theorem Location.legible_toJson {room : Nat} (location : Location) :
    Legible (room + 1) location.toJson := by
  have hword : ∀ word : UInt32, Legible room (.ofNat word.toNat) :=
    fun word => Json.legible_ofNat (Nat.lt_trans word.toNat_lt (by decide))
  refine .object ?_
  simp [Legible.string, hword]

theorem Usage.legible_toJson {room : Nat} (usage : Usage) :
    Legible (room + 2) usage.toJson := by
  have hlocation :=
    Json.legible_optionalEntry "location" (@Location.legible_toJson room) usage.location
  exact .object (List.forall_mem_append.mpr
    ⟨List.forall_mem_cons.mpr ⟨.string, hlocation⟩, List.forall_mem_singleton.mpr .string⟩)

theorem Method.legible_toJson (method : Method) : Legible 4 method.toJson := by
  have hstring : ∀ text : String, Legible 3 (.string text) := fun _ => .string
  have hversion := Json.legible_optionalEntry "libraryVersion" hstring method.libraryVersion
  have husages : Legible 3 (.ofList Usage.toJson method.usages) :=
    Json.legible_ofList (@Usage.legible_toJson 0) method.usages
  have hfields : ∀ entry ∈ [("supported", .boolean method.supported),
      ("supportedType", .ofNamed method.supportedType),
      ("usages", .ofList Usage.toJson method.usages)], Legible 3 entry.2 :=
    List.forall_mem_cons.mpr ⟨.boolean, List.forall_mem_cons.mpr
      ⟨.string, List.forall_mem_singleton.mpr husages⟩⟩
  have hkind := Json.legible_optionalEntry "endpointKind" hstring method.endpointKind
  refine .object (List.forall_mem_append.mpr ⟨List.forall_mem_append.mpr
    ⟨List.forall_mem_append.mpr ⟨method.identity.legible_entries, ?_⟩, hfields⟩, hkind⟩)
  exact List.forall_mem_cons.mpr ⟨.string, hversion⟩

theorem ModeledMethod.legible_toJson (modeled : ModeledMethod) : Legible 1 modeled.toJson := by
  have hmodel : ∀ entry ∈ modeled.model.entries, Legible 0 entry.2 := by
    cases modeled.model <;>
      simp [Model.entries, Model.fieldEntries, Json.ofNamed, Legible.string]
  exact .object (List.forall_mem_append.mpr ⟨modeled.identity.legible_entries, hmodel⟩)

theorem Consistency.Notice.legible_toJson (notice : Notice) : Legible 1 notice.toJson := by
  cases notice with
  | missingMethod signature => exact .object (by simp [Legible.string])
  | inconsistentSupported signature expected =>
    exact .object (by simp [Legible.string, Legible.boolean])

theorem Validation.Finding.legible_toJson {finding : Finding} (h : finding.index < UInt64.size) :
    Legible 1 finding.toJson :=
  .object (by simp [Json.ofNamed, Legible.string, Json.legible_ofNat h])

/-! ## Rows -/

/-- A row of booleans, integers of 64 bits and texts. -/
def Row.Integral (row : Row) : Prop :=
  ∀ number, .number number ∈ row → ∃ n, number = .integer n ∧ Json.fitsWord n = true

theorem Row.legible_toJson {row : Row} (h : row.Integral) : Legible 1 row.toJson := by
  refine .array fun item hitem => ?_
  obtain ⟨scalar, hscalar, rfl⟩ := List.mem_map.mp hitem
  cases scalar with
  | boolean value => exact .boolean
  | text value => exact .string
  | number number =>
    obtain ⟨n, rfl, hfits⟩ := h number hscalar
    exact .integer hfits

/-! ## Completions -/

namespace Completion

mutual

/-- The number of levels of a completion. -/
def depth : Completion → Nat
  | node _ _ _ _ followup => depthOfList followup + 1

/-- The greatest number of levels among completions. -/
def depthOfList : List Completion → Nat
  | [] => 0
  | option :: options => max option.depth (depthOfList options)

end

mutual

theorem legible_toJson : ∀ (completion : Completion) {room : Nat},
    2 * completion.depth ≤ room + 1 → Legible room completion.toJson
  | node label value icon details followup, room, h => by
    rw [depth] at h
    obtain ⟨room, rfl⟩ := Nat.exists_eq_add_one_of_ne_zero (show room ≠ 0 by omega)
    have hstring : ∀ text : String, Legible room (.string text) := fun _ => .string
    have hdetails := Json.legible_optionalEntry "details" hstring details
    have hfollowup : ∀ entry ∈ followupEntry followup, Legible room entry.2 := by
      cases followup with
      | nil => exact fun entry hentry => absurd hentry List.not_mem_nil
      | cons option options =>
        have hdepth : 0 < option.depth := by
          cases option
          exact Nat.succ_pos _
        have hmax : option.depth ≤ depthOfList (option :: options) := Nat.le_max_left _ _
        obtain ⟨room, rfl⟩ := Nat.exists_eq_add_one_of_ne_zero (show room ≠ 0 by omega)
        exact List.forall_mem_singleton.mpr
          (.array (legible_toJsonList (option :: options) (by omega)))
    have hlabel : ∀ entry ∈ [("label", Json.string label), ("value", .string value),
        ("icon", .string icon)], Legible room entry.2 := by simp [Legible.string]
    rw [toJson_eq]
    exact .object (List.forall_mem_append.mpr
      ⟨List.forall_mem_append.mpr ⟨hlabel, hdetails⟩, hfollowup⟩)

theorem legible_toJsonList : ∀ (completions : List Completion) {room : Nat},
    2 * depthOfList completions ≤ room + 1 → ∀ json ∈ toJsonList completions, Legible room json
  | [], _, _ => fun json hjson => absurd hjson List.not_mem_nil
  | completion :: completions, room, h => by
    rw [depthOfList] at h
    rw [toJsonList]
    exact List.forall_mem_cons.mpr
      ⟨legible_toJson completion (by omega), legible_toJsonList completions (by omega)⟩

end

end Completion

/-! ## Both ways -/

/-- A value is read back from its JSON value and from its JSON text. -/
def Restored {α : Type} (write : α → Json) (read : Json → Option α) (x : α) : Prop :=
  read (write x) = some x ∧ (Json.read? (write x).pretty).bind read = some x

theorem restored_of_legible {α : Type} {write : α → Json} {read : Json → Option α} {x : α}
    {room : Nat} (hvalue : read (write x) = some x) (hlegible : Legible room (write x))
    (hroom : room ≤ Json.maxNesting) : Restored write read x := by
  refine ⟨hvalue, ?_⟩
  rw [Json.read?_pretty (hlegible.mono hroom), Option.bind_some, hvalue]

/-- **What is written as JSON is read back unchanged.** A row and a completion are read back from
their JSON values in any case, and from their texts when its numbers are integers of 64 bits and it
has at most 64 levels. -/
theorem written_restored :
    (∀ method : Method, Restored Method.toJson Method.ofJson? method) ∧
      (∀ modeled : ModeledMethod, Restored ModeledMethod.toJson ModeledMethod.ofJson? modeled) ∧
      (∀ notice : Consistency.Notice,
        Restored Consistency.Notice.toJson Consistency.Notice.ofJson? notice) ∧
      (∀ finding : Validation.Finding, finding.index < UInt64.size →
        Restored Validation.Finding.toJson Validation.Finding.ofJson? finding) ∧
      (∀ row : Row, Row.ofJson? row.toJson = some row ∧
        (row.Integral → Restored Row.toJson Row.ofJson? row)) ∧
      ∀ completion : Completion, Completion.ofJson? completion.toJson = some completion ∧
        (completion.depth ≤ 64 → Restored Completion.toJson Completion.ofJson? completion) := by
  refine ⟨fun method => ?_, fun modeled => ?_, fun notice => ?_, fun finding hindex => ?_,
    fun row => ⟨Row.reads row, fun hintegral => ?_⟩,
    fun completion => ⟨Completion.reads completion, fun hdepth => ?_⟩⟩
  · exact restored_of_legible (Method.reads method) method.legible_toJson (by decide)
  · exact restored_of_legible (ModeledMethod.reads modeled) modeled.legible_toJson (by decide)
  · exact restored_of_legible (Consistency.Notice.reads notice) notice.legible_toJson (by decide)
  · exact restored_of_legible (Validation.Finding.ofJson?_toJson hindex)
      (Validation.Finding.legible_toJson hindex) (by decide)
  · exact restored_of_legible (Row.reads row) (Row.legible_toJson hintegral) (by decide)
  · exact restored_of_legible (Completion.reads completion)
      (@Completion.legible_toJson completion 127 (by omega)) (by decide)

/-- A completion with empty details above one without, and a finding. -/
theorem written_restored_receiver :
    Restored Completion.toJson Completion.ofJson?
        (.node "Argument[self]" "Argument[self]" "symbol-class" (some "")
          [.node "Attribute[\"a\"]" "Argument[self].Attribute[\"a\"]" "symbol-field" none []]) ∧
      Restored Validation.Finding.toJson Validation.Finding.ofJson? (.ofDuplicate 3) := by
  obtain ⟨-, -, -, hfinding, -, hcompletion⟩ := written_restored
  exact ⟨(hcompletion _).2 (by decide), hfinding _ (by decide)⟩

end Dataflow
