import Dataflow.Keyed
import Mathlib.Data.List.Nodup
import Mathlib.Data.List.Perm.Basic
import Mathlib.Data.String.Basic
import Mathlib.Tactic.SplitIfs

/-!
# Tables with text keys, as maps

* `Ordered table`: the keys increase, so none stands twice.

Results:
* `mem_sortedKeys`, `pairwise_sortedKeys`: the sorted keys of a list are its texts, each once and in
  increasing order.
* `sortedKeys_congr`: they depend on which texts occur only.
* `get?_group`: the group of a key that occurs is what has the key, in the order of the list.
* `flatMap_filter_perm`: the groups of distinct keys make up the list, if they cover it.
-/

namespace Dataflow.Keyed

/-! ## Sorted keys -/

theorem mem_insertKey {key other : String} : ∀ {keys : List String},
    other ∈ insertKey key keys ↔ other = key ∨ other ∈ keys
  | [] => by simp [insertKey]
  | first :: rest => by
    unfold insertKey
    split_ifs with hlt heq
    · rw [List.mem_cons]
    · subst heq
      rw [List.mem_cons]
      tauto
    · rw [List.mem_cons, mem_insertKey, List.mem_cons]
      tauto

theorem sortedKeys_cons (text : String) (texts : List String) :
    sortedKeys (text :: texts) = insertKey text (sortedKeys texts) := rfl

theorem mem_sortedKeys {key : String} {texts : List String} :
    key ∈ sortedKeys texts ↔ key ∈ texts := by
  induction texts with
  | nil => rfl
  | cons text texts ih => rw [sortedKeys_cons, mem_insertKey, ih, List.mem_cons]

/-- Putting a text at its place keeps a list increasing. -/
theorem pairwise_insertKey (key : String) : ∀ {keys : List String},
    keys.Pairwise (· < ·) → (insertKey key keys).Pairwise (· < ·)
  | [], _ => List.pairwise_singleton _ key
  | first :: rest, h => by
    obtain ⟨hfirst, hrest⟩ := List.pairwise_cons.mp h
    unfold insertKey
    split_ifs with hlt heq
    · refine List.pairwise_cons.mpr ⟨fun other hother => ?_, h⟩
      rcases List.mem_cons.mp hother with rfl | hother
      · exact hlt
      · exact lt_trans hlt (hfirst other hother)
    · exact h
    · refine List.pairwise_cons.mpr ⟨fun other hother => ?_, pairwise_insertKey key hrest⟩
      rcases mem_insertKey.mp hother with rfl | hother
      · exact lt_of_le_of_ne (not_lt.mp hlt) fun h => heq h.symm
      · exact hfirst other hother

/-- **Sorted keys increase**, so none stands twice. -/
theorem pairwise_sortedKeys (texts : List String) : (sortedKeys texts).Pairwise (· < ·) := by
  induction texts with
  | nil => exact List.Pairwise.nil
  | cons text texts ih => exact pairwise_insertKey text ih

theorem nodup_sortedKeys (texts : List String) : (sortedKeys texts).Nodup :=
  (pairwise_sortedKeys texts).imp ne_of_lt

/-- **Sorted keys depend on which texts occur**, and not on where or how often. -/
theorem sortedKeys_congr {a b : List String} (h : ∀ text, text ∈ a ↔ text ∈ b) :
    sortedKeys a = sortedKeys b := by
  have hperm : (sortedKeys a).Perm (sortedKeys b) := by
    rw [List.perm_ext_iff_of_nodup (nodup_sortedKeys a) (nodup_sortedKeys b)]
    intro text
    rw [mem_sortedKeys, mem_sortedKeys, h]
  refine hperm.eq_of_pairwise (fun x y _ _ hxy hyx => ?_) (pairwise_sortedKeys a)
    (pairwise_sortedKeys b)
  exact absurd hyx (lt_asymm hxy)

/-! ## Looking up -/

variable {α : Type}

/-- The keys of a table increase. -/
def Ordered (table : Keyed α) : Prop :=
  table.keys.Pairwise (· < ·)

/-- Looking up in a table that is given by a function on its keys. -/
theorem get?_map_key (f : String → α) (key : String) (keys : List String) :
    get? (keys.map fun k => (k, f k)) key = if key ∈ keys then some (f key) else none := by
  induction keys with
  | nil => rfl
  | cons first keys ih =>
    unfold get? at ih ⊢
    rw [List.map_cons, List.find?_cons]
    by_cases hfirst : first = key
    · subst hfirst
      simp
    · have hkey : key ≠ first := fun h => hfirst h.symm
      simp only [beq_eq_false_iff_ne.mpr hfirst, ih, List.mem_cons, hkey, false_or]

theorem mem_of_get?_eq_some {table : Keyed α} {key : String} {value : α}
    (h : table.get? key = some value) : (key, value) ∈ table := by
  unfold get? at h
  obtain ⟨⟨first, _⟩, hfind, rfl⟩ := Option.map_eq_some_iff.mp h
  have hkey : (first == key) = true :=
    List.find?_some (p := fun entry : String × α => entry.1 == key) hfind
  obtain rfl := beq_iff_eq.mp hkey
  exact List.mem_of_find?_eq_some hfind

theorem get?_eq_none_iff {table : Keyed α} {key : String} :
    table.get? key = none ↔ key ∉ table.keys := by
  unfold get? keys
  simp only [Option.map_eq_none_iff, List.find?_eq_none, List.mem_map, beq_iff_eq, not_exists,
    not_and]

variable {β : Type}

theorem keys_map_value (f : α → β) (table : Keyed α) :
    keys (table.map fun entry => (entry.1, f entry.2)) = table.keys := by
  unfold keys
  rw [List.map_map]
  rfl

theorem get?_map_value (f : α → β) (table : Keyed α) (key : String) :
    get? (table.map fun entry => (entry.1, f entry.2)) key = (table.get? key).map f := by
  unfold get?
  rw [List.find?_map, Option.map_map, Option.map_map]
  rfl

/-- A key has one value. -/
theorem Ordered.value_unique {table : Keyed α} (h : Ordered table) {key : String} {a b : α}
    (ha : (key, a) ∈ table) (hb : (key, b) ∈ table) : a = b := by
  have hnodup : (table.map Prod.fst).Nodup := List.Pairwise.imp ne_of_lt h
  exact (Prod.mk.inj (List.inj_on_of_nodup_map hnodup ha hb rfl)).2

/-- **Looking up a key** finds the one entry that has it. -/
theorem Ordered.get?_eq_some_iff {table : Keyed α} (h : Ordered table) {key : String} {value : α} :
    table.get? key = some value ↔ (key, value) ∈ table := by
  refine ⟨mem_of_get?_eq_some, fun hmem => ?_⟩
  cases hget : table.get? key with
  | none => exact absurd (List.mem_map_of_mem hmem) (get?_eq_none_iff.mp hget)
  | some other => rw [h.value_unique (mem_of_get?_eq_some hget) hmem]

/-! ## Changing entries -/

theorem Ordered.erase {table : Keyed α} (h : Ordered table) (key : String) :
    Ordered (table.erase key) :=
  List.Pairwise.sublist (List.filter_sublist.map Prod.fst) h

theorem keys_update (key : String) (f : Option α → α) (table : Keyed α) :
    (update key f table).keys = insertKey key table.keys := by
  induction table with
  | nil => rfl
  | cons entry rest ih =>
    unfold update
    split_ifs with hlt heq
    · simp [keys, insertKey, hlt]
    · simp [keys, insertKey, heq]
    · unfold keys at ih ⊢
      simp [insertKey, hlt, heq, ih]

theorem Ordered.update {table : Keyed α} (h : Ordered table) (key : String)
    (f : Option α → α) : Ordered (table.update key f) := by
  unfold Ordered
  rw [keys_update]
  exact pairwise_insertKey key h

/-! ## Groups -/

theorem keys_group (key : α → String) (xs : List α) :
    (group key xs).keys = sortedKeys (xs.map key) := by
  unfold keys group
  rw [List.map_map]
  exact List.map_id _

theorem ordered_group (key : α → String) (xs : List α) : Ordered (group key xs) := by
  unfold Ordered
  rw [keys_group]
  exact pairwise_sortedKeys _

/-- **The group of a key** that occurs is what has the key. -/
theorem get?_group (key : α → String) (xs : List α) (k : String) :
    (group key xs).get? k =
      if k ∈ xs.map key then some (xs.filter fun x => key x == k) else none := by
  unfold group
  rw [get?_map_key]
  simp only [mem_sortedKeys]

/-- Looking up a group, empty where the key does not occur. -/
theorem getD_get?_group (key : α → String) (xs : List α) (k : String) :
    ((group key xs).get? k).getD [] = xs.filter fun x => key x == k := by
  rw [get?_group]
  split_ifs with hk
  · rfl
  · refine (List.filter_eq_nil_iff.mpr fun x hx hkey => hk ?_).symm
    rw [← beq_iff_eq.mp hkey]
    exact List.mem_map_of_mem hx

/-- **A list is cut up by keys**: if its keys are among some that are distinct, the parts that have
one of these make up the list. -/
theorem flatMap_filter_perm {key : α → String} {keys : List String} (hnodup : keys.Nodup)
    {xs : List α} (hkeys : ∀ x ∈ xs, key x ∈ keys) :
    (keys.flatMap fun k => xs.filter fun x => key x == k).Perm xs := by
  induction keys generalizing xs with
  | nil =>
    have hnil : xs = [] :=
      List.eq_nil_iff_forall_not_mem.mpr fun x hx => List.not_mem_nil (hkeys x hx)
    rw [hnil]
    exact List.Perm.refl _
  | cons first keys ih =>
    obtain ⟨hfirst, hnodup⟩ := List.nodup_cons.mp hnodup
    -- The parts of the other keys are parts of what does not have the first one.
    have hothers : (keys.flatMap fun k => xs.filter fun x => key x == k) =
        keys.flatMap fun k =>
          (xs.filter fun x => !(key x == first)).filter fun x => key x == k := by
      refine List.flatMap_congr fun k hk => ?_
      rw [List.filter_filter]
      refine List.filter_congr fun x _ => ?_
      by_cases hx : key x = k
      · have hne : key x ≠ first := fun h => hfirst (by rwa [← h, hx])
        rw [beq_eq_false_iff_ne.mpr hne, Bool.not_false, Bool.and_true]
      · rw [beq_eq_false_iff_ne.mpr hx, Bool.false_and]
    rw [List.flatMap_cons, hothers]
    refine ((ih hnodup ?_).append_left _).trans (List.filter_append_perm _ xs)
    intro x hx
    obtain ⟨hmem, hne⟩ := List.mem_filter.mp hx
    rcases List.mem_cons.mp (hkeys x hmem) with heq | hlater
    · rw [heq, beq_self_eq_true] at hne
      exact absurd hne (by decide)
    · exact hlater

end Dataflow.Keyed
