import Dataflow.Codec.MemberChain
import Dataflow.Proofs.Text.Ends
import Mathlib.Tactic.ByContra
import Mathlib.Order.Basic

/-!
# The type column of a row with a chain of members

A type column is `package.Type`, with a marker `!` behind the type of a function. Read back, it is
cut at its first dot and loses one marker.

* `Marked`: a type that ends with the marker itself.

Results:
* `splitType_typeColumn`: the two parts a written column is cut into.
* `splitType_typeColumn_iff`: which packages, types and endpoint types are read back.
-/

namespace Dataflow.MemberChain

/-! ## The class marker -/

/-- A type that ends with the class marker. -/
def Marked (typeName : String) : Prop :=
  typeName.toList.getLast? = some '!'

instance : DecidablePred Marked := fun _ => inferInstanceAs (Decidable (_ = _))

theorem not_marked_empty : ¬ Marked "" := by decide

theorem marked_iff {typeName : String} : Marked typeName ↔ ∃ bare, typeName = bare ++ "!" :=
  Text.getLast?_eq_some_iff

theorem marked_append_marker (typeName : String) : Marked (typeName ++ "!") :=
  marked_iff.mpr ⟨typeName, rfl⟩

theorem bareType_append_marker (typeName : String) : bareType (typeName ++ "!") = typeName := by
  unfold bareType
  rw [show Text.dropLast? '!' (typeName ++ "!") = some typeName from
    Text.dropLast?_eq_some_iff.mpr rfl]
  rfl

theorem bareType_of_not_marked {typeName : String} (h : ¬ Marked typeName) :
    bareType typeName = typeName := by
  unfold bareType
  rw [Text.dropLast?_eq_none_iff.mpr h]
  rfl

/-- Taking the marker off changes a marked type. -/
theorem bareType_eq_self_iff {typeName : String} :
    bareType typeName = typeName ↔ ¬ Marked typeName := by
  refine ⟨fun h hmarked => ?_, bareType_of_not_marked⟩
  obtain ⟨bare, rfl⟩ := marked_iff.mp hmarked
  rw [bareType_append_marker] at h
  have hlen := congrArg String.length h
  rw [String.length_append, show "!".length = 1 from rfl] at hlen
  omega

theorem length_bareType_le (short : String) : (bareType short).length ≤ short.length := by
  unfold bareType
  cases h : Text.dropLast? '!' short with
  | none => exact le_refl _
  | some rest =>
    rw [Text.dropLast?_eq_some_iff.mp h, String.length_append, Option.getD_some]
    omega

/-! ## Writing and reading -/

/-- How a written type column falls apart. -/
theorem splitType_typeColumn {package typeName : String} (endpointType : EndpointType)
    (hdot : '.' ∉ package.toList) (hnamed : package = "" → typeName = "") :
    splitType (typeColumn package typeName endpointType) =
      (package,
        if typeName ≠ "" ∧ endpointType = .function then typeName ++ "!" else typeName) := by
  unfold splitType typeColumn
  by_cases htype : typeName = ""
  · subst htype
    simp [Text.splitFirst_of_not_mem hdot]
  · have hpackage : package ≠ "" := fun h => htype (hnamed h)
    rw [if_pos ⟨hpackage, htype⟩, @String.append_assoc (package ++ ".")]
    rw [show package ++ "." = package ++ String.ofList ['.'] from rfl,
      Text.splitFirst_of_mem hdot]
    by_cases hfun : endpointType = .function <;> simp [htype, hfun]

/-- **The type column is read back** iff the package is one part and stands before every type, and
only a function has a type that ends with the marker. -/
theorem splitType_typeColumn_iff {package typeName : String} {endpointType : EndpointType} :
    ((splitType (typeColumn package typeName endpointType)).1 = package ∧
        bareType (splitType (typeColumn package typeName endpointType)).2 = typeName) ↔
      '.' ∉ package.toList ∧ (package = "" → typeName = "") ∧
        (endpointType = .function ∨ ¬ Marked typeName) := by
  constructor
  · rintro ⟨hpackage, htype⟩
    have hdot : '.' ∉ package.toList := by
      rw [← hpackage]
      exact Text.not_mem_splitFirst_fst '.' _
    have hnamed : package = "" → typeName = "" := by
      rintro rfl
      by_contra hne
      have hcolumn : typeColumn "" typeName endpointType = typeName := by
        unfold typeColumn
        rw [if_neg (fun h => h.1 rfl), String.empty_append]
      rw [hcolumn] at htype
      have hshort := Text.length_splitFirst_snd_lt hne '.'
      have hbare := length_bareType_le (splitType typeName).2
      rw [htype] at hbare
      unfold splitType at hbare
      omega
    refine ⟨hdot, hnamed, ?_⟩
    rw [splitType_typeColumn endpointType hdot hnamed] at htype
    by_cases hfun : endpointType = .function
    · exact Or.inl hfun
    · rw [if_neg (fun h => hfun h.2)] at htype
      exact Or.inr (bareType_eq_self_iff.mp htype)
  · rintro ⟨hdot, hnamed, hmark⟩
    rw [splitType_typeColumn endpointType hdot hnamed]
    refine ⟨rfl, ?_⟩
    simp only
    split_ifs with h
    · exact bareType_append_marker typeName
    · rcases hmark with hfun | hmark
      · have htype : typeName = "" := by
          by_contra hne
          exact h ⟨hne, hfun⟩
        subst htype
        exact bareType_of_not_marked not_marked_empty
      · exact bareType_of_not_marked hmark

end Dataflow.MemberChain
