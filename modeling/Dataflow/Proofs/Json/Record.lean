import Dataflow.Json.Record
import Dataflow.Proofs.Named
import Mathlib.Data.List.Nodup

/-!
# Records are read back

* `Reads read write`: what is written of a value is read as the value.

Results:
* `reads_string`, `reads_boolean`, `reads_word32`, `reads_named`, `Reads.list`: the readers for the
  parts of a record.
* `select?_of_sublist`: entries whose names are some of the given ones, in order, are selected.
* `select?_append_left`, `select?_append_right`: entries with other names do not matter.
* `bind_of_eq_some`: the parts of a record are read in turn.
* `required_of_lookup`, `defaulting_of_lookup`, `optional_of_lookup`: fields that were written.
-/

namespace Dataflow.Json

/-! ## Values -/

/-- What is written of a value is read as the value. -/
def Reads {α : Type} (read : Json → Option α) (write : α → Json) : Prop :=
  ∀ x, read (write x) = some x

section

variable {α : Type} {read : Json → Option α} {write : α → Json}

theorem reads_string : Reads string? .string := fun _ => rfl

theorem reads_boolean : Reads boolean? .boolean := fun _ => rfl

theorem reads_named [Named α] [LawfulNamed α] : Reads named? (ofNamed (α := α)) :=
  LawfulNamed.ofName?_name

theorem natBelow?_ofNat {bound n : Nat} (h : n < bound) : (ofNat n).natBelow? bound = some n := by
  have hbound : (0 : Int) ≤ n ∧ (n : Int) < bound := ⟨Int.natCast_nonneg n, Int.ofNat_lt.mpr h⟩
  exact if_pos hbound

theorem reads_word32 : Reads word32? fun word => .ofNat word.toNat := by
  intro word
  unfold word32?
  rw [natBelow?_ofNat word.toNat_lt, Option.map_some, UInt32.ofNat_toNat]

theorem Reads.list (h : Reads read write) : Reads (list? read) (ofList write) := by
  intro xs
  unfold list? ofList
  induction xs with
  | nil => rfl
  | cons x xs ih =>
    simp only at ih ⊢
    rw [List.map_cons, List.mapM_cons, h x, ih]
    rfl

/-! ## Fields -/

theorem height_le_entriesHeight {name : String} {value : Json} :
    ∀ {entries : List (String × Json)}, (name, value) ∈ entries →
      value.height ≤ entriesHeight entries
  | entry :: entries, h => by
    rw [entriesHeight]
    rcases List.mem_cons.mp h with rfl | h
    · exact Nat.le_max_left _ _
    · exact Nat.le_trans (height_le_entriesHeight h) (Nat.le_max_right _ _)

/-- The entries of a record are selected, whichever of its fields they are. -/
theorem select?_of_sublist {names : List String} {entries : List (String × Json)}
    (hnodup : names.Nodup) (hsub : (entries.map Prod.fst).Sublist names) :
    select? names entries = some entries := by
  have hknown : entries.filter (fun entry => names.contains entry.1) = entries :=
    List.filter_eq_self.mpr fun entry hentry =>
      List.contains_iff_mem.mpr (hsub.subset (List.mem_map_of_mem hentry))
  unfold select?
  simp only [hknown]
  exact if_pos (hnodup.sublist hsub)

theorem record?_object {names : List String} {entries : List (String × Json)}
    (hsub : (entries.map Prod.fst).Sublist names) (hnodup : names.Nodup) :
    (Json.object entries).record? names = some entries :=
  select?_of_sublist hnodup hsub

/-- Entries with other names are not selected. -/
theorem filter_contains_eq_nil {names : List String} {entries : List (String × Json)}
    (h : ∀ name ∈ entries.map Prod.fst, name ∉ names) :
    entries.filter (fun entry => names.contains entry.1) = [] := by
  refine List.filter_eq_nil_iff.mpr fun entry hentry => ?_
  rw [List.contains_iff_mem]
  exact h entry.1 (List.mem_map_of_mem hentry)

theorem select?_append_left {names : List String} (front : List (String × Json))
    {back : List (String × Json)} (h : ∀ name ∈ back.map Prod.fst, name ∉ names) :
    select? names (front ++ back) = select? names front := by
  unfold select?
  rw [List.filter_append, filter_contains_eq_nil h, List.append_nil]

theorem select?_append_right {names : List String} {front : List (String × Json)}
    (back : List (String × Json)) (h : ∀ name ∈ front.map Prod.fst, name ∉ names) :
    select? names (front ++ back) = select? names back := by
  unfold select?
  rw [List.filter_append, filter_contains_eq_nil h, List.nil_append]

/-- The entry of a field is found under its name, if it is not left out. -/
@[simp]
theorem lookup_optionalEntry (name key : String) (value : Option α) :
    List.lookup key (optionalEntry name write value) =
      if key = name then value.map write else none := by
  cases value with
  | none => exact (ite_self none).symm
  | some x =>
    unfold optionalEntry
    by_cases hkey : key = name
    · simp [hkey]
    · simp [List.lookup_cons, hkey, beq_eq_false_iff_ne.mpr hkey]

theorem map_fst_optionalEntry_sublist (name : String) (value : Option α) :
    (List.map Prod.fst (optionalEntry name write value)).Sublist [name] := by
  cases value with
  | none => exact List.nil_sublist _
  | some x => exact List.Sublist.refl _

/-- A part that is read goes on to the next. -/
theorem bind_of_eq_some {β : Type} {part : Option α} {x : α} {next : α → Option β}
    (h : part = some x) : (part >>= next) = next x := by
  rw [h]
  rfl

variable {fields : Fields} {name : String}

theorem required_of_read {json : Json} {x : α} (hlookup : fields.lookup name = some json)
    (hread : read json = some x) : fields.required name read = some x := by
  unfold Fields.required
  rw [hlookup, Option.bind_some, hread]

theorem required_of_lookup (h : Reads read write) {x : α}
    (hx : fields.lookup name = some (write x)) : fields.required name read = some x :=
  required_of_read hx (h x)

theorem defaulting_of_lookup (h : Reads read write) {x : α} (default : α)
    (hx : fields.lookup name = some (write x)) : fields.defaulting name read default = some x := by
  unfold Fields.defaulting
  rw [hx]
  exact h x

/-- A field that was left out when absent is absent when it is read. -/
theorem optional_of_lookup (h : Reads read write) (hnull : ∀ x, write x ≠ .null) {value : Option α}
    (hvalue : fields.lookup name = value.map write) :
    fields.optional name read = some value := by
  unfold Fields.optional
  rw [hvalue]
  cases value with
  | none => rfl
  | some x =>
    rw [Option.map_some]
    split
    · contradiction
    · next hpresent => exact absurd (Option.some.inj hpresent) (hnull x)
    · next hpresent => rw [← Option.some.inj hpresent, h x, Option.map_some]

end

end Dataflow.Json
