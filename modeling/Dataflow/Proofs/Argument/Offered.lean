import Dataflow.Proofs.Argument.Position
import Dataflow.Proofs.Flat.RoundTrip
import Dataflow.Proofs.MemberChain.RoundTrip
import Dataflow.Proofs.MethodToken.Rows

/-!
# Positions that are offered can be used

A position that is offered is one token, so the codecs do not cut it, and its label is that of no
token in front of a position.

* `Plain text`: a text without brackets and line feeds.
* `ReadsBack ecosystem identity position`: a sink at a position of an endpoint is written as a row,
  and from this row the position and the name of the method are read.

Results:
* `readsBack_of_isToken`: at a position `Argument[...]` that is one token this holds in every
  ecosystem.
* `positions_offered`: what is offered for an endpoint, and that all of it can be used.
-/

namespace Dataflow

/-- A text without brackets and line feeds. -/
structure Plain (text : String) : Prop where
  opening : '[' ∉ text.toList
  closing : ']' ∉ text.toList
  line : '\n' ∉ text.toList

instance (text : String) : Decidable (Plain text) :=
  decidable_of_iff ('[' ∉ text.toList ∧ ']' ∉ text.toList ∧ '\n' ∉ text.toList)
    ⟨fun ⟨ho, hc, hl⟩ => ⟨ho, hc, hl⟩, fun ⟨ho, hc, hl⟩ => ⟨ho, hc, hl⟩⟩

theorem Plain.balanced {text : String} (h : Plain text) : AccessPath.Balanced text := by
  unfold AccessPath.Balanced
  rw [List.count_eq_zero.mpr h.opening, List.count_eq_zero.mpr h.closing]

/-- A sink at a position is read back from its row, with the method it belongs to. -/
def ReadsBack (ecosystem : Ecosystem) (identity : Identity) (position : String) : Prop :=
  ∀ kind provenance, ∃ row decoded provenance',
    ecosystem.encode ⟨identity, .sink position kind provenance⟩ = .ok row ∧
      ecosystem.decodeChecked .sink row = .ok decoded ∧
      decoded.model = .sink position kind provenance' ∧
      decoded.identity.method = identity.method

theorem Flat.readsBack {ecosystem : Ecosystem} (hflat : ecosystem = .java ∨ ecosystem = .csharp)
    (identity : Identity) (position : String) : ReadsBack ecosystem identity position := by
  intro kind provenance
  have hvariant : (Model.sink position kind provenance).variant ∈
      [Variant.source, .sink, .summary, .neutral] := by simp [Model.variant]
  obtain ⟨row, hwritten, hread⟩ := decodeChecked_encode hflat hvariant identity
  exact ⟨row, _, provenance, hwritten, hread, rfl, rfl⟩

theorem MemberChain.readsBack {identity : Identity} {position : String}
    (h : Separable identity.method position) : ReadsBack .python identity position := by
  intro kind provenance
  let column := typeColumn identity.package identity.typeName identity.endpointType
  let path := pathOf identity.method position
  have hparse := parse_pathOf h column
  have hmethod : (parse column path).method = identity.method := congrArg Parsed.method hparse
  have hposition : (parse column path).suffix = position := congrArg Parsed.suffix hparse
  have hread : Ecosystem.python.decodeChecked .sink [.text column, .text path, .text kind] =
      .ok ⟨(parse column path).identity, .sink position kind .manual⟩ :=
    decodeChecked_eq_ok_iff.mpr
      ⟨rfl, by simp [Manual, Model.provenance?], column, path, rfl, rfl, hposition⟩
  exact ⟨_, _, .manual, encode_eq_ok_iff.mpr rfl, hread, rfl, hmethod⟩

theorem MethodToken.readsBack {identity : Identity} {position : String}
    (h : Separable identity.method position) : ReadsBack .ruby identity position := by
  intro kind provenance
  let path := pathOf identity.method position
  have hrow : MemberChain.rowOf? identity.typeName path (.sink position kind provenance) =
      some [.text identity.typeName, .text path, .text kind] := rfl
  have hread := decodeChecked_rowOf? hrow
  rw [splitPath_pathOf h] at hread
  exact ⟨_, _, .manual, encode_eq_ok_iff.mpr rfl, hread, rfl, rfl⟩

/-! ## Positions that are one token -/

/-- A position is no token of another label. -/
theorem Argument.pathOf_ne {content text : String} (h : text.toList.head? ≠ some 'A') :
    pathOf content ≠ text := by
  rintro rfl
  exact h (by simp [pathOf])

section

variable {method content : String} (hmethod : Plain method)
  (htoken : AccessPath.IsToken (Argument.pathOf content))

include htoken

theorem AccessPath.texts_argument :
    texts (Argument.pathOf content) = [Argument.pathOf content] :=
  texts_of_solid htoken.ne_empty htoken.solid

include hmethod

theorem MemberChain.separable_argument : Separable method (Argument.pathOf content) where
  method := by
    refine Or.inr ⟨hmethod.line, ?_, Or.inr hmethod.balanced⟩
    exact @AccessPath.solid_bracketed "Member" method (by decide) rfl hmethod.closing
  position := by
    refine Or.inr fun token hmem => ?_
    rw [AccessPath.texts_argument htoken] at hmem
    obtain rfl := Option.some.inj hmem
    rintro (h | ⟨name, -, -, h⟩)
    · exact Argument.pathOf_ne (by decide) h
    · exact Argument.pathOf_ne (by simp) h

theorem MethodToken.separable_argument : Separable method (Argument.pathOf content) where
  closed := hmethod.closing
  unnamed := by
    rintro - token hmem
    rw [AccessPath.texts_argument htoken] at hmem
    obtain rfl := Option.some.inj hmem
    rintro ⟨name, -, -, h⟩
    exact Argument.pathOf_ne (by simp) h
  alone := fun hopen => absurd hopen hmethod.opening

end

/-- **A position that is one token is read back** in every ecosystem. -/
theorem readsBack_of_isToken (ecosystem : Ecosystem) {identity : Identity} {content : String}
    (hmethod : Plain identity.method) (htoken : AccessPath.IsToken (Argument.pathOf content)) :
    ReadsBack ecosystem identity (Argument.pathOf content) := by
  cases ecosystem with
  | java => exact Flat.readsBack (Or.inl rfl) identity _
  | csharp => exact Flat.readsBack (Or.inr rfl) identity _
  | python => exact MemberChain.readsBack (MemberChain.separable_argument hmethod htoken)
  | ruby => exact MethodToken.readsBack (MethodToken.separable_argument hmethod htoken)

/-! ## All that is offered -/

/-- A position that is offered for an endpoint with a plain parameter list is one token. -/
theorem Ecosystem.isToken_of_mem {ecosystem : Ecosystem} {identity : Identity} {option : Argument}
    (hparameters : Plain identity.parameters)
    (hoption : option ∈ (ecosystem.arguments identity).options) :
    ∃ content, option.path = Argument.pathOf content ∧ AccessPath.IsToken option.path := by
  obtain ⟨front, slots, names, hfront, hslots, hsub, hpaths⟩ := exists_slots ecosystem identity
  have hmem := List.mem_map_of_mem (f := Argument.path) hoption
  rw [hpaths] at hmem
  obtain ⟨slot, hslot, hpath⟩ := List.mem_map.mp hmem
  obtain ⟨-, hname⟩ := proper_of_mem hfront hslots hsub hslot
  have hnot : ∀ c : Char, c.isDigit = false → c ≠ ',' → c ≠ ':' → c ∉ "self".toList →
      c ∉ "this".toList → c ∉ identity.parameters.toList → c ∉ slot.text.toList := by
    intro c hdigit hcomma hcolon hself hthis hlist
    refine Slot.not_mem_text hdigit hcomma hcolon ?_
    rcases hname with rfl | rfl | hname
    · exact hself
    · exact hthis
    · exact fun hc => hlist (hname c hc)
  refine ⟨slot.text, hpath.symm, ?_⟩
  rw [← hpath]
  exact Slot.isToken_path
    (hnot '[' (by decide) (by decide) (by decide) (by decide) (by decide) hparameters.opening)
    (hnot ']' (by decide) (by decide) (by decide) (by decide) (by decide) hparameters.closing)

/-- **What is offered can be used.** The positions are the receiver, but in Python, and those of the
parameters in order, the first of which is chosen. None has a diagnostic, those of distinct
parameters are distinct, and a sink at any of them is read back from its row. -/
theorem positions_offered (ecosystem : Ecosystem) (identity : Identity)
    (hmethod : Plain identity.method) (hparameters : Plain identity.parameters) :
    (ecosystem.arguments identity).options =
        ecosystem.receivers ++
          identity.parameterNames.mapIdx (ecosystem.positionAt identity.endpointType) ∧
      (∀ option ∈ (ecosystem.arguments identity).options,
        AccessPath.diagnostics option.path = []) ∧
      (identity.parameterNames.Nodup →
        ((ecosystem.arguments identity).options.map Argument.path).Nodup) ∧
      (ecosystem.arguments identity).defaultPath =
        (identity.parameterNames.head?.map fun name =>
          (ecosystem.positionAt identity.endpointType 0 name).path).getD ecosystem.receiverPath ∧
      ∀ option ∈ (ecosystem.arguments identity).options,
        ReadsBack ecosystem identity option.path := by
  have harguments := ecosystem.arguments_eq identity
  refine ⟨congrArg ArgumentOptions.options harguments, fun option hoption => ?_,
    ecosystem.nodup_paths, ?_, fun option hoption => ?_⟩
  · obtain ⟨content, hpath, htoken⟩ := Ecosystem.isToken_of_mem hparameters hoption
    rw [hpath] at htoken ⊢
    refine AccessPath.diagnostics_eq_nil_iff.mpr fun text htext => ?_
    rw [AccessPath.texts_argument htoken] at htext
    rwa [List.mem_singleton.mp htext]
  · rw [harguments, Ecosystem.positions]
    cases identity.parameterNames with
    | nil => rfl
    | cons name names => rw [List.mapIdx_cons]; rfl
  · obtain ⟨content, hpath, htoken⟩ := Ecosystem.isToken_of_mem hparameters hoption
    rw [hpath] at htoken ⊢
    exact readsBack_of_isToken ecosystem hmethod htoken

/-- The parameters of a Python method: its receiver, one passed either way, one by name and one by
number. -/
theorem positions_offered_request :
    (Ecosystem.python.arguments
        ⟨"requests", "Session", "request", "(self,url,timeout:,verify/)", .method, ""⟩).options.map
          Argument.path =
        ["Argument[self]", "Argument[0,url:]", "Argument[timeout:]", "Argument[2]"] ∧
      ∀ position ∈ ["Argument[self]", "Argument[0,url:]", "Argument[timeout:]", "Argument[2]"],
        ReadsBack .python
          ⟨"requests", "Session", "request", "(self,url,timeout:,verify/)", .method, ""⟩
          position := by
  obtain ⟨hoptions, -, -, -, hread⟩ := positions_offered .python
    ⟨"requests", "Session", "request", "(self,url,timeout:,verify/)", .method, ""⟩
    (by decide) (by decide)
  have hpaths := (congrArg (List.map Argument.path) hoptions).trans (show _ =
    ["Argument[self]", "Argument[0,url:]", "Argument[timeout:]", "Argument[2]"] by decide)
  refine ⟨hpaths, fun position hposition => ?_⟩
  rw [← hpaths] at hposition
  obtain ⟨option, hoption, rfl⟩ := List.mem_map.mp hposition
  exact hread option hoption

end Dataflow
