import Dataflow.Argument
import Dataflow.Proofs.Text.Ends
import Mathlib.Tactic.Tauto

/-!
# What stands between the brackets of an argument position

A position is written `Argument[...]`. Between the brackets stands one of four forms, and a text has
at most one of them: only the last has a comma, only the last two have a colon, and only the second
is digits.

* `Slot`: the receiver, a number, a name with a colon, or both of these.
* `Slot.Proper`: the names in a slot have no comma.

Results:
* `Slot.text_inj`: a proper slot is determined by its text.
* `mem_parameterNames`: the characters of a parameter's name are those of the parameter list, and
  none is a comma.
-/

namespace Dataflow

/-- What stands between the brackets of an argument position. -/
inductive Slot where
  | receiver (word : String)
  | numbered (i : Nat)
  | keyword (name : String)
  | combined (i : Nat) (name : String)
  deriving DecidableEq

namespace Slot

/-- The text of a slot. -/
def text : Slot → String
  | receiver word => word
  | numbered i => toString i
  | keyword name => name ++ ":"
  | combined i name => toString i ++ "," ++ name ++ ":"

/-- The name in a slot, empty for a number. -/
def name : Slot → String
  | receiver word => word
  | numbered _ => ""
  | keyword name | combined _ name => name

/-- The receiver has one of its two names, and no other name has a comma. -/
def Proper : Slot → Prop
  | receiver word => word = "self" ∨ word = "this"
  | slot => ',' ∉ slot.name.toList

/-! ## Characters of a slot -/

theorem isDigit_of_mem_toString {i : Nat} {c : Char} (h : c ∈ (toString i).toList) :
    c.isDigit = true := by
  rw [Nat.toString_eq_ofList_toDigits, String.toList_ofList] at h
  exact Nat.isDigit_of_mem_toDigits (by decide) (by decide) h

theorem not_mem_toString {i : Nat} {c : Char} (h : c.isDigit = false) :
    c ∉ (toString i).toList := by
  intro hmem
  rw [isDigit_of_mem_toString hmem] at h
  exact absurd h (by decide)

theorem toString_injective : Function.Injective (toString : Nat → String) := by
  intro i j h
  rw [Nat.toString_eq_ofList_toDigits, Nat.toString_eq_ofList_toDigits, String.ofList_inj] at h
  rw [← Nat.ofDigitChars_ten_toDigits (n := i), h, Nat.ofDigitChars_ten_toDigits]

/-- The characters of a slot are those of its name, digits, a comma or a colon. -/
theorem not_mem_text {slot : Slot} {c : Char} (hdigit : c.isDigit = false) (hcomma : c ≠ ',')
    (hcolon : c ≠ ':') (hname : c ∉ slot.name.toList) : c ∉ slot.text.toList := by
  cases slot with
  | receiver word => exact hname
  | numbered i => exact not_mem_toString hdigit
  | keyword word =>
    simp only [text, String.toList_append, List.mem_append, not_or]
    exact ⟨hname, by simpa using hcolon⟩
  | combined i word =>
    have hnumber : c ∉ (toString i).toList := not_mem_toString hdigit
    simp only [text, String.toList_append, List.mem_append, not_or]
    exact ⟨⟨⟨hnumber, by simpa using hcomma⟩, hname⟩, by simpa using hcolon⟩

/-- Only a slot with a number and a name has a comma. -/
theorem comma_mem_text_iff {slot : Slot} (h : slot.Proper) :
    ',' ∈ slot.text.toList ↔ ∃ i name, slot = combined i name := by
  cases slot with
  | receiver word => rcases h with rfl | rfl <;> simp [text]
  | numbered i => simpa [text] using not_mem_toString (i := i) (c := ',') (by decide)
  | keyword name =>
    have hname : ',' ∉ name.toList := h
    simp [text, hname]
  | combined i name => simp [text]

/-- Only a slot with a name has a colon. -/
theorem colon_mem_text_iff {slot : Slot} (h : slot.Proper) :
    ':' ∈ slot.text.toList ↔
      (∃ name, slot = keyword name) ∨ ∃ i name, slot = combined i name := by
  cases slot with
  | receiver word => rcases h with rfl | rfl <;> simp [text]
  | numbered i => simpa [text] using not_mem_toString (i := i) (c := ':') (by decide)
  | keyword name => simp [text]
  | combined i name => simp [text]

/-- The name of the receiver is no number. -/
theorem receiver_text_ne {word : String} (h : (receiver word).Proper) (i : Nat) :
    (receiver word).text ≠ (numbered i).text := by
  intro heq
  have hmem : 's' ∈ (receiver word).text.toList := by
    rcases h with rfl | rfl <;> simp [text]
  rw [heq] at hmem
  exact not_mem_toString (by decide) hmem

/-- The first comma of a slot with a number and a name stands between the two. -/
theorem splitFirst_text (i : Nat) (name : String) :
    Text.splitFirst ',' (combined i name).text = (toString i, name ++ ":") := by
  have hnumber : ',' ∉ (toString i).toList := not_mem_toString (by decide)
  rw [← Text.splitFirst_of_mem hnumber, text, String.append_assoc]

/-- **A proper slot is determined by its text.** -/
theorem text_inj {a b : Slot} (ha : a.Proper) (hb : b.Proper) (h : a.text = b.text) : a = b := by
  have hcomma := (comma_mem_text_iff ha).symm.trans (h ▸ comma_mem_text_iff hb)
  have hcolon := (colon_mem_text_iff ha).symm.trans (h ▸ colon_mem_text_iff hb)
  match a, b with
  | receiver _, receiver _ => exact congrArg receiver h
  | receiver _, numbered i => exact absurd h (receiver_text_ne ha i)
  | numbered i, receiver _ => exact absurd h.symm (receiver_text_ne hb i)
  | numbered i, numbered j => exact congrArg numbered (toString_injective h)
  | keyword name, keyword name' => exact congrArg keyword ((String.append_left_inj _).mp h)
  | combined i name, combined j name' =>
    have hsplit := congrArg (Text.splitFirst ',') h
    rw [splitFirst_text, splitFirst_text, Prod.mk.injEq] at hsplit
    rw [toString_injective hsplit.1, (String.append_left_inj _).mp hsplit.2]
  | receiver _, keyword _ | receiver _, combined .. | numbered _, keyword _
  | numbered _, combined .. | keyword _, receiver _ | keyword _, numbered _
  | keyword _, combined .. | combined .., receiver _ | combined .., numbered _
  | combined .., keyword _ => simp at hcomma hcolon

end Slot

/-! ## The names of parameters -/

theorem mem_withoutParentheses {parameters : String} {c : Char}
    (h : c ∈ (withoutParentheses parameters).toList) : c ∈ parameters.toList := by
  unfold withoutParentheses at h
  cases hinner : (Text.dropFirst? '(' parameters).bind (Text.dropLast? ')') with
  | none =>
    rw [hinner] at h
    exact h
  | some inner =>
    rw [hinner] at h
    obtain ⟨rest, hrest, hlast⟩ := Option.bind_eq_some_iff.mp hinner
    rw [Text.dropFirst?_eq_some_iff.mp hrest, Text.dropLast?_eq_some_iff.mp hlast]
    simp only [String.toList_append, List.mem_append]
    exact Or.inr (Or.inl h)

/-- **The name of a parameter** has characters of the parameter list, but no comma. -/
theorem mem_parameterNames {parameters name : String} (h : name ∈ parameterNames parameters) :
    ∀ c ∈ name.toList, c ∈ parameters.toList ∧ c ≠ ',' := by
  intro c hc
  unfold parameterNames at h
  simp only at h
  split_ifs at h with hempty
  · exact absurd h List.not_mem_nil
  · obtain ⟨hmem, hne⟩ := Text.mem_splitOn h c hc
    exact ⟨mem_withoutParentheses hmem, hne⟩

end Dataflow
