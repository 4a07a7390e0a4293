import Dataflow.Codec
import Dataflow.Proofs.AccessPath.Grammar
import Dataflow.Proofs.Argument.Slot
import Mathlib.Data.List.Nodup

/-!
# The argument positions that are offered

* `Names i name slot`: the slot is made for a parameter `name` at the index `i`.
* `positionAt ecosystem endpointType i name`: the position of the parameter at an index.
* `receivers ecosystem`: the receiver, where it is offered in front of the parameters.

Results:
* `Slot.isToken_path`: the path of a slot without brackets is one token of the grammar.
* `Names.inj`: parameters with one slot have one index or one name.
* `arguments_eq`: what is offered is the receiver and the position of each parameter.
* `exists_slots`: the paths that are offered are those of a receiver, if any, and of slots that are
  made for parameters.
* `nodup_paths`: distinct parameters have distinct paths.
-/

namespace Dataflow

/-! ## Slots of parameters -/

/-- The path of a slot. -/
def Slot.path (slot : Slot) : String :=
  Argument.pathOf slot.text

/-- A proper slot is determined by its path. -/
theorem Slot.path_inj {a b : Slot} (ha : a.Proper) (hb : b.Proper) (h : a.path = b.path) : a = b :=
  Slot.text_inj ha hb ((String.append_right_inj _).mp ((String.append_left_inj _).mp h))

/-- A slot without brackets makes a token of the grammar. -/
theorem Slot.isToken_path {slot : Slot} (hopen : '[' ∉ slot.text.toList)
    (hclose : ']' ∉ slot.text.toList) : AccessPath.IsToken slot.path := by
  have hlabel : AccessPath.IsWord "Argument" :=
    ⟨by decide, fun c hc => AccessPath.isWordChar_iff.mp (List.all_eq_true.mp rfl c hc)⟩
  exact .bracketed hlabel fun c hc => ⟨fun h => hopen (h ▸ hc), fun h => hclose (h ▸ hc)⟩

/-- A slot is made for a parameter at an index. -/
inductive Slot.Names (i : Nat) (name : String) : Slot → Prop
  | numbered : Names i name (.numbered i)
  | combined : Names i name (.combined i name)
  | keyword {bare : String} (h : name = bare ++ ":") : Names i name (.keyword bare)

namespace Slot.Names

variable {i j : Nat} {a b : String} {slot : Slot}

/-- **Parameters with one slot** have one index or one name. -/
theorem inj (ha : Names i a slot) (hb : Names j b slot) : i = j ∨ a = b := by
  cases ha with
  | numbered =>
    cases hb
    exact Or.inl rfl
  | combined =>
    cases hb
    exact Or.inl rfl
  | keyword ha =>
    obtain ⟨hb⟩ | ⟨hb⟩ | ⟨hb⟩ := hb
    exact Or.inr (ha.trans hb.symm)

/-- The name in a slot comes from that of its parameter. -/
theorem mem_of_mem_name (h : Names i a slot) {c : Char} (hc : c ∈ slot.name.toList) :
    c ∈ a.toList := by
  cases h with
  | numbered => exact absurd hc List.not_mem_nil
  | combined => exact hc
  | keyword h =>
    rw [h, String.toList_append]
    exact List.mem_append_left _ hc

theorem proper (h : Names i a slot) (ha : ',' ∉ a.toList) : slot.Proper := by
  have hname : ',' ∉ slot.name.toList := fun hmem => ha (h.mem_of_mem_name hmem)
  cases h <;> exact hname

theorem ne_receiver (h : Names i a slot) (word : String) : slot ≠ .receiver word := by
  cases h <;> simp

end Slot.Names

/-! ## Positions of parameters -/

theorem Flat.exists_slot (i : Nat) (name : String) :
    ∃ slot, Slot.Names i name slot ∧ (Argument.named (toString i) name).path = slot.path :=
  ⟨.numbered i, .numbered, rfl⟩

theorem MemberChain.exists_slot (i : Nat) (name : String) :
    ∃ slot, Slot.Names i name slot ∧ (argument i name).path = slot.path := by
  unfold argument
  cases hcolon : Text.dropLast? ':' name with
  | some bare =>
    have hname := Text.dropLast?_eq_some_iff.mp hcolon
    exact ⟨.keyword bare, .keyword hname, congrArg Argument.pathOf hname⟩
  | none =>
    cases Text.dropLast? '/' name with
    | some bare => exact ⟨.numbered i, .numbered, rfl⟩
    | none => exact ⟨.combined i name, .combined, rfl⟩

theorem MethodToken.exists_slot (i : Nat) (name : String) :
    ∃ slot, Slot.Names i name slot ∧ (argument i name).path = slot.path := by
  unfold argument
  split_ifs with hcolon
  · obtain ⟨bare, hname⟩ := Text.getLast?_eq_some_iff.mp (Text.endsWith_iff.mp hcolon)
    exact ⟨.keyword bare, .keyword hname, congrArg Argument.pathOf hname⟩
  · exact ⟨.numbered i, .numbered, rfl⟩

namespace Ecosystem

/-- The path of the receiver. -/
def receiverPath : Ecosystem → String
  | java | csharp => "Argument[this]"
  | python | ruby => "Argument[self]"

/-- The receiver, where it is offered in front of the parameters. -/
def receivers : Ecosystem → List Argument
  | python => []
  | ecosystem => [.bare ecosystem.receiverPath]

/-- The position of the parameter at an index. In Python the first one can be the receiver, and then
the others are counted behind it. -/
def positionAt (ecosystem : Ecosystem) (endpointType : EndpointType) (i : Nat) (name : String) :
    Argument :=
  match ecosystem with
  | java | csharp => .named (toString i) name
  | ruby => MethodToken.argument i name
  | python =>
    if MemberChain.hasReceiver endpointType then
      match i with
      | 0 => .named "self" name
      | j + 1 => MemberChain.argument j name
    else MemberChain.argument i name

/-- The positions of the parameters of an endpoint. -/
def positions (ecosystem : Ecosystem) (identity : Identity) : List Argument :=
  identity.parameterNames.mapIdx (ecosystem.positionAt identity.endpointType)

theorem argumentList_eq (endpointType : EndpointType) (names : List String) :
    MemberChain.argumentList (MemberChain.hasReceiver endpointType) names =
      names.mapIdx (python.positionAt endpointType) := by
  cases names with
  | nil => rfl
  | cons name names =>
    unfold MemberChain.argumentList positionAt
    cases MemberChain.hasReceiver endpointType with
    | true => rw [List.mapIdx_cons]; rfl
    | false => rfl

/-- **What is offered**: the receiver and the positions of the parameters, the first of which is
chosen. -/
theorem arguments_eq (ecosystem : Ecosystem) (identity : Identity) :
    ecosystem.arguments identity =
      ⟨ecosystem.receivers ++ ecosystem.positions identity,
        ((ecosystem.positions identity).head?.map Argument.path).getD ecosystem.receiverPath⟩ := by
  cases ecosystem with
  | python =>
    unfold positions
    rw [← argumentList_eq]
    rfl
  | _ => rfl

/-! ## Paths -/

/-- Slots that are made for parameters, one for each. -/
def SlotsFor (names : List String) (slots : List Slot) : Prop :=
  ∃ slot : Nat → String → Slot, (∀ i name, Slot.Names i name (slot i name)) ∧
    slots = names.mapIdx slot

theorem exists_slotsFor {f : Nat → String → Argument}
    (hf : ∀ i name, ∃ slot, Slot.Names i name slot ∧ (f i name).path = slot.path)
    (names : List String) :
    ∃ slots, SlotsFor names slots ∧
      (names.mapIdx f).map Argument.path = slots.map Slot.path := by
  choose slot hnames hpath using hf
  refine ⟨names.mapIdx slot, ⟨slot, hnames, rfl⟩, List.ext_getElem (by simp) fun i hi hi' => ?_⟩
  simp only [List.getElem_map, List.getElem_mapIdx, hpath]

theorem SlotsFor.exists_names {names : List String} {slots : List Slot} (h : SlotsFor names slots)
    {slot : Slot} (hslot : slot ∈ slots) : ∃ i, ∃ name ∈ names, Slot.Names i name slot := by
  obtain ⟨make, hnames, rfl⟩ := h
  obtain ⟨i, hi, rfl⟩ := List.mem_mapIdx.mp hslot
  exact ⟨i, names[i], List.getElem_mem hi, hnames i names[i]⟩

/-- Distinct parameters have distinct slots. -/
theorem SlotsFor.nodup {names : List String} {slots : List Slot} (h : SlotsFor names slots)
    (hnodup : names.Nodup) : slots.Nodup := by
  obtain ⟨make, hnames, rfl⟩ := h
  refine List.pairwise_iff_getElem.mpr fun i j hi hj hlt heq => ?_
  rw [List.length_mapIdx] at hi hj
  rw [List.getElem_mapIdx, List.getElem_mapIdx] at heq
  rcases (hnames i names[i]).inj (heq ▸ hnames j names[j]) with hindex | hname
  · omega
  · exact List.pairwise_iff_getElem.mp hnodup i j hi hj hlt hname

/-- **The paths that are offered** are those of a receiver, if any, and of slots that are made for
parameters. -/
theorem exists_slots (ecosystem : Ecosystem) (identity : Identity) :
    ∃ (front slots : List Slot) (names : List String),
      (front = [] ∨ ∃ word, (Slot.receiver word).Proper ∧ front = [.receiver word]) ∧
      SlotsFor names slots ∧ names.Sublist identity.parameterNames ∧
      (ecosystem.arguments identity).options.map Argument.path =
        (front ++ slots).map Slot.path := by
  have hthis : (Slot.receiver "this").Proper := Or.inr rfl
  have hself : (Slot.receiver "self").Proper := Or.inl rfl
  rw [arguments_eq]
  cases ecosystem with
  | python =>
    show ∃ front slots names, _ ∧ _ ∧ _ ∧
      (List.mapIdx (python.positionAt identity.endpointType) _).map Argument.path = _
    rw [← argumentList_eq]
    cases identity.parameterNames with
    | nil =>
      exact ⟨[], [], [], Or.inl rfl, ⟨_, fun _ _ => .numbered, rfl⟩, List.Sublist.refl _, rfl⟩
    | cons name names =>
      unfold MemberChain.argumentList
      split_ifs
      · obtain ⟨slots, hslots, hpaths⟩ := exists_slotsFor MemberChain.exists_slot names
        exact ⟨[.receiver "self"], slots, names, Or.inr ⟨"self", hself, rfl⟩, hslots,
          List.sublist_cons_self name names, congrArg ("Argument[self]" :: ·) hpaths⟩
      · obtain ⟨slots, hslots, hpaths⟩ := exists_slotsFor MemberChain.exists_slot (name :: names)
        exact ⟨[], slots, _, Or.inl rfl, hslots, List.Sublist.refl _, hpaths⟩
  | ruby =>
    obtain ⟨slots, hslots, hpaths⟩ :=
      exists_slotsFor MethodToken.exists_slot identity.parameterNames
    exact ⟨[.receiver "self"], slots, _, Or.inr ⟨"self", hself, rfl⟩, hslots, List.Sublist.refl _,
      congrArg ("Argument[self]" :: ·) hpaths⟩
  | _ =>
    obtain ⟨slots, hslots, hpaths⟩ := exists_slotsFor Flat.exists_slot identity.parameterNames
    exact ⟨[.receiver "this"], slots, _, Or.inr ⟨"this", hthis, rfl⟩, hslots, List.Sublist.refl _,
      congrArg ("Argument[this]" :: ·) hpaths⟩

/-- A slot that is offered is proper, and its name comes from the parameter list unless it is the
receiver. -/
theorem proper_of_mem {front slots : List Slot} {names : List String} {identity : Identity}
    (hfront : front = [] ∨ ∃ word, (Slot.receiver word).Proper ∧ front = [.receiver word])
    (hslots : SlotsFor names slots) (hsub : names.Sublist identity.parameterNames) {slot : Slot}
    (hslot : slot ∈ front ++ slots) :
    slot.Proper ∧ (slot = .receiver "self" ∨ slot = .receiver "this" ∨
      ∀ c ∈ slot.name.toList, c ∈ identity.parameters.toList) := by
  rcases List.mem_append.mp hslot with hmem | hmem
  · obtain rfl | ⟨word, hword, rfl⟩ := hfront
    · exact absurd hmem List.not_mem_nil
    · obtain rfl := List.mem_singleton.mp hmem
      refine ⟨hword, ?_⟩
      rcases hword with rfl | rfl
      · exact Or.inl rfl
      · exact Or.inr (Or.inl rfl)
  · obtain ⟨i, name, hname, hnames⟩ := hslots.exists_names hmem
    have hchars := mem_parameterNames (hsub.subset hname)
    refine ⟨hnames.proper fun hcomma => (hchars ',' hcomma).2 rfl, Or.inr (Or.inr fun c hc => ?_)⟩
    exact (hchars c (hnames.mem_of_mem_name hc)).1

/-- **Distinct parameters have distinct paths**, and none is that of the receiver. -/
theorem nodup_paths (ecosystem : Ecosystem) {identity : Identity}
    (h : identity.parameterNames.Nodup) :
    ((ecosystem.arguments identity).options.map Argument.path).Nodup := by
  obtain ⟨front, slots, names, hfront, hslots, hsub, hpaths⟩ := exists_slots ecosystem identity
  have hnodup : (front ++ slots).Nodup := by
    refine List.nodup_append.mpr ⟨?_, hslots.nodup (h.sublist hsub), fun a ha b hb => ?_⟩
    · rcases hfront with rfl | ⟨word, -, rfl⟩
      · exact List.nodup_nil
      · exact List.nodup_singleton _
    · obtain rfl | ⟨word, -, rfl⟩ := hfront
      · exact absurd ha List.not_mem_nil
      · obtain rfl := List.mem_singleton.mp ha
        obtain ⟨i, name, -, hnames⟩ := hslots.exists_names hb
        exact (hnames.ne_receiver word).symm
  rw [hpaths]
  refine hnodup.map_on fun a ha b hb heq => ?_
  refine Slot.path_inj (proper_of_mem hfront hslots hsub ha).1
    (proper_of_mem hfront hslots hsub hb).1 heq

end Ecosystem

end Dataflow
