/-!
# Searching in a text
-/

namespace Dataflow.Text

/-- `needle` stands somewhere in a list. -/
def isInfix (needle : List Char) : List Char → Bool
  | [] => needle.isEmpty
  | c :: cs => needle.isPrefixOf (c :: cs) || isInfix needle cs

/-- One text stands somewhere in another. -/
def contains (needle text : String) : Bool :=
  isInfix needle.toList text.toList

end Dataflow.Text
