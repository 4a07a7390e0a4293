import Dataflow.Text.Digit
import Dataflow.Text.Ends
import Dataflow.Text.Lowercase

/-!
# The display order of labels

The label of a suggestion is the last token of its path. Labels come in seven ranks, in this order:
`Argument[self]`, arguments by number, arguments by keyword, `Argument[block]`,
`Argument[hash-splat]`, parameters by number, and all others.

* `compare`: within the ranks that have numbers, by number; within the others, by lower case. Labels
  that agree in this are compared by code points, so only equal labels tie.
* Numbers are compared as texts without leading zeros, the shorter first, and so have any size.
-/

namespace Dataflow.Label

/-- The content of `word[content]` when it is a run of decimal digits. -/
def number? (word label : String) : Option String :=
  (Text.bracketed? word label).filter fun digits =>
    digits != "" && digits.toList.all Text.isDecimalDigit

/-- The label is `Argument[name:]`, the name having neither a digit nor a colon. -/
def isKeyword (label : String) : Bool :=
  match (Text.bracketed? "Argument" label).bind (Text.dropLast? ':') with
  | some name => name != "" && name.toList.all fun c => !Text.isDecimalDigit c && c != ':'
  | none => false

/-- The rank of a label. -/
def rank (label : String) : Nat :=
  if label = "Argument[self]" then 0
  else if (number? "Argument" label).isSome then 1
  else if isKeyword label then 2
  else if label = "Argument[block]" then 3
  else if label = "Argument[hash-splat]" then 4
  else if (number? "Parameter" label).isSome then 5
  else 6

/-- Digits without the zeros in front. -/
def withoutZeros (digits : String) : String :=
  String.ofList (digits.toList.dropWhile (· == '0'))

/-- The number of a numbered label, without zeros in front. -/
def index? (label : String) : Option String :=
  ((number? "Argument" label).or (number? "Parameter" label)).map withoutZeros

/-- The length of a numbered label's number, in bytes. -/
def indexSize (label : String) : Nat :=
  ((index? label).map String.utf8ByteSize).getD 0

/-- What labels of one rank are compared by. -/
def body (label : String) : String :=
  (index? label).getD (Text.lowercase label)

/-- The display order. -/
def compare : String → String → Ordering :=
  compareLex (compareOn rank) <|
    compareLex (compareOn indexSize) <| compareLex (compareOn body) (compareOn id)

/-- A label may stand before another. -/
def mayPrecede (a b : String) : Bool :=
  (compare a b).isLE

end Dataflow.Label
