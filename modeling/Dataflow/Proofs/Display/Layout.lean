import Dataflow.Proofs.Display.Order
import Dataflow.Proofs.Keyed
import Mathlib.Data.List.Flatten

/-!
# The layout of methods

* `members`, `signatures`: the methods of a group, and their signatures in display order.
* `Shows mode methods layout`: the layout has the groups of the methods, each once, and in them
  every method once.

Results:
* `layOut_eq`: the layout has, for each name in the order of groups, what is in the group.
* `shows_layOut`: a layout shows its methods.
* `layOut_congr`: it does not depend on the order of the methods.
* `layOut_orderly`: both together.
-/

namespace Dataflow.Display

variable {mode : Mode} {progress : Progress} {methods others : List Method}

/-! ## Members of groups -/

/-- The methods of a group. -/
def members (mode : Mode) (methods : List Method) (name : String) : List Method :=
  methods.filter fun method => mode.groupName method == name

theorem groupName_of_mem_members {name : String} {method : Method}
    (h : method ∈ members mode methods name) : mode.groupName method = name :=
  beq_iff_eq.mp (List.mem_filter.mp h).2

theorem members_perm (h : methods.Perm others) (name : String) :
    (members mode methods name).Perm (members mode others name) :=
  h.filter _

/-- The groups of a list in another order have the same ranks. -/
theorem map_rank_groups (h : methods.Perm others) :
    (groups mode methods).map GroupRank.ofGroup = (groups mode others).map GroupRank.ofGroup := by
  have hnames : Keyed.sortedKeys (methods.map mode.groupName) =
      Keyed.sortedKeys (others.map mode.groupName) :=
    Keyed.sortedKeys_congr fun name => (h.map mode.groupName).mem_iff
  unfold groups Keyed.group
  rw [hnames, List.map_map, List.map_map]
  refine List.map_congr_left fun name _ => ?_
  exact GroupRank.ofGroup_congr (members_perm h name)

/-! ## Names of groups -/

theorem groupOrder_perm (groups : Keyed (List Method)) :
    (groupOrder groups).Perm groups.keys :=
  (List.mergeSort_perm groups fun a b => (compareGroups a b).isLE).map Prod.fst

theorem nodup_groupOrder_groups (mode : Mode) (methods : List Method) :
    (groupOrder (groups mode methods)).Nodup := by
  rw [(groupOrder_perm _).nodup_iff]
  exact (Keyed.ordered_group mode.groupName methods).imp ne_of_lt

theorem mem_groupOrder_groups {name : String} :
    name ∈ groupOrder (groups mode methods) ↔
      ∃ method ∈ methods, mode.groupName method = name := by
  unfold groups
  rw [(groupOrder_perm _).mem_iff, Keyed.keys_group, Keyed.mem_sortedKeys, List.mem_map]

/-! ## Layouts -/

/-- The signatures of the members of a group, in display order. -/
def signatures (mode : Mode) (progress : Progress) (methods : List Method) (name : String) :
    List String :=
  (progress.sortMethods (members mode methods name)).map Method.signature

theorem signatures_perm (mode : Mode) (progress : Progress) (methods : List Method)
    (name : String) :
    (signatures mode progress methods name).Perm
      ((members mode methods name).map Method.signature) :=
  (List.mergeSort_perm (members mode methods name) fun a b =>
    (progress.compareMethods a b).isLE).map Method.signature

/-- A layout has every group with the signatures of its members. -/
theorem layOut_eq (mode : Mode) (progress : Progress) (methods : List Method) :
    layOut mode progress methods =
      (groupOrder (groups mode methods)).map fun name =>
        (name, signatures mode progress methods name) := by
  unfold layOut signatures members groups
  simp only [Keyed.getD_get?_group]

theorem map_fst_layOut (mode : Mode) (progress : Progress) (methods : List Method) :
    (layOut mode progress methods).map Prod.fst = groupOrder (groups mode methods) := by
  rw [layOut_eq, List.map_map]
  exact List.map_id _

/-- A layout shows methods: no group twice, and every method once. -/
structure Shows (mode : Mode) (methods : List Method) (layout : List (String × List String)) :
    Prop where
  /-- No two groups have one name. -/
  nodup : (layout.map Prod.fst).Nodup
  /-- The groups are those of the methods. -/
  names : ∀ name, name ∈ layout.map Prod.fst ↔ ∃ method ∈ methods, mode.groupName method = name
  /-- A group has the signatures of its members, each as often as members have it. -/
  signatures : ∀ group ∈ layout,
    group.2.Perm ((members mode methods group.1).map Method.signature)
  /-- Every method puts its signature into its group, and nothing else is in a group. -/
  entries : (layout.flatMap fun group => group.2.map fun signature => (group.1, signature)).Perm
    (methods.map fun method => (mode.groupName method, method.signature))

/-- The entries of a layout are those of the methods, group by group. -/
theorem entries_layOut (mode : Mode) (progress : Progress) (methods : List Method) :
    ((layOut mode progress methods).flatMap fun group =>
        group.2.map fun signature => (group.1, signature)).Perm
      (methods.map fun method => (mode.groupName method, method.signature)) := by
  have hgroup : ∀ name,
      ((signatures mode progress methods name).map fun signature => (name, signature)).Perm
        ((members mode methods name).map fun method =>
          (mode.groupName method, method.signature)) := by
    intro name
    have hperm := (signatures_perm mode progress methods name).map fun signature =>
      (name, signature)
    rw [List.map_map] at hperm
    refine hperm.trans (List.Perm.of_eq (List.map_congr_left fun method hmethod => ?_))
    rw [groupName_of_mem_members hmethod]
    rfl
  have hcut : ((groupOrder (groups mode methods)).flatMap (members mode methods)).Perm methods := by
    refine Keyed.flatMap_filter_perm (nodup_groupOrder_groups mode methods) ?_
    intro method hmethod
    exact mem_groupOrder_groups.mpr ⟨method, hmethod, rfl⟩
  rw [layOut_eq, List.flatMap_map]
  refine (List.Perm.flatMap_left _ fun name _ => hgroup name).trans ?_
  rw [← List.map_flatMap]
  exact hcut.map _

/-- **No method is lost**, and none is shown twice. -/
theorem shows_layOut (mode : Mode) (progress : Progress) (methods : List Method) :
    Shows mode methods (layOut mode progress methods) where
  nodup := by
    rw [map_fst_layOut]
    exact nodup_groupOrder_groups mode methods
  names name := by
    rw [map_fst_layOut]
    exact mem_groupOrder_groups
  signatures group hgroup := by
    rw [layOut_eq] at hgroup
    obtain ⟨name, -, rfl⟩ := List.mem_map.mp hgroup
    exact signatures_perm mode progress methods name
  entries := entries_layOut mode progress methods

/-- **The order of the methods does not matter** to the layout. -/
theorem layOut_congr (mode : Mode) (progress : Progress) (h : methods.Perm others) :
    layOut mode progress methods = layOut mode progress others := by
  have horder : groupOrder (groups mode methods) = groupOrder (groups mode others) :=
    groupOrder_congr (List.Perm.of_eq (map_rank_groups h))
  rw [layOut_eq, layOut_eq, horder]
  refine List.map_congr_left fun name _ => ?_
  have hsignatures : signatures mode progress methods name = signatures mode progress others name :=
    progress.signatures_congr ((members_perm h name).map progress.rank)
  rw [hsignatures]

/-- **A layout is orderly**: it is the same for every order of the methods, and it shows each of
them once, in its group. -/
theorem layOut_orderly (mode : Mode) (progress : Progress) (methods : List Method) :
    (∀ others, methods.Perm others →
      layOut mode progress methods = layOut mode progress others) ∧
    Shows mode methods (layOut mode progress methods) :=
  ⟨fun _ h => layOut_congr mode progress h, shows_layOut mode progress methods⟩

/-- Two versions of one library list the same method, and nothing but the version tells them
apart. -/
theorem layOut_versions :
    let older : Method :=
      { identity := ⟨"org.sql2o", "Connection", "createQuery", "(String)", .method,
          "org.sql2o.Connection#createQuery(String)"⟩
        library := "sql2o", libraryVersion := some "1.5.0", supported := false
        supportedType := .none, usages := [], endpointKind := none }
    let newer : Method := { older with libraryVersion := some "1.6.0" }
    let logger : Method :=
      { older with
        identity := ⟨"org.slf4j", "Logger", "info", "(String)", .method,
          "org.slf4j.Logger#info(String)"⟩
        library := "slf4j" }
    let progress : Progress := ⟨[], ["org.slf4j.Logger#info(String)"], []⟩
    [older, logger, newer].Perm [newer, older, logger] ∧
      layOut .application progress [older, logger, newer] =
        layOut .application progress [newer, older, logger] := by
  intro older newer logger progress
  have hperm : [older, logger, newer].Perm [newer, older, logger] := by decide
  exact ⟨hperm, (layOut_orderly .application progress [older, logger, newer]).1 _ hperm⟩

end Dataflow.Display
