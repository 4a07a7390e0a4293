import Dataflow.Text.Lowercase
import Mathlib.Data.List.Infix
import Mathlib.Data.List.Flatten

/-!
# Lower case character by character

Only a capital sigma is written with a look at what stands around it.

Results:
* `toList_lowercase`: without capital sigmas the characters are put in lower case one by one.
* `lowercase_prefix`: a prefix of such a text stays one in lower case.
-/

namespace Dataflow.Text

namespace Lowercase

theorem following_of_not_mem : ∀ {before cs : List Char}, 'Σ' ∉ cs →
    following before cs = cs.flatMap ofChar
  | _, [], _ => rfl
  | before, c :: cs, h => by
    obtain ⟨hc, hcs⟩ := not_or.mp (mt List.mem_cons.mpr h)
    rw [following, if_neg (Ne.symm hc), following_of_not_mem hcs, List.flatMap_cons]

end Lowercase

variable {text : String}

theorem toList_lowercase (h : 'Σ' ∉ text.toList) :
    (lowercase text).toList = text.toList.flatMap Lowercase.ofChar := by
  unfold lowercase
  rw [String.toList_ofList, Lowercase.following_of_not_mem h]

/-- **A prefix of a text without capital sigmas stays a prefix in lower case.** -/
theorem lowercase_prefix (h : 'Σ' ∉ text.toList) {front : String}
    (hfront : front.toList <+: text.toList) :
    (lowercase front).toList <+: (lowercase text).toList := by
  rw [toList_lowercase h, toList_lowercase fun hmem => h (hfront.subset hmem)]
  exact hfront.flatMap _

/-- With a capital sigma it need not: one that ends a word is written in another way when the word
goes on. -/
example : lowercase "ΟΣ" = "ος" ∧ lowercase "ΟΣΑ" = "οσα" := by decide

end Dataflow.Text
