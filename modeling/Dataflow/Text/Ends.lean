/-!
# The ends of a text

Checks and cuts at the first or last character of a text.

* `dropFirst?`, `dropLast?`: the text without a given first or last character, if it has it.
* `bracketed? label text`: the content of a text of the form `label[content]`.
* `splitOn`: the parts of a text between the occurrences of a character.
-/

namespace Dataflow.Text

/-- The text after a given first character. -/
def dropFirst? (c : Char) (text : String) : Option String :=
  match text.toList with
  | [] => none
  | d :: rest => if d = c then some (String.ofList rest) else none

/-- The text before a given last character. -/
def dropLast? (c : Char) (text : String) : Option String :=
  if text.toList.getLast? = some c then some (String.ofList text.toList.dropLast) else none

/-- The text ends with a given character. -/
def endsWith (c : Char) (text : String) : Bool :=
  text.toList.getLast? == some c

/-- The text starts with another. -/
def startsWith (start text : String) : Bool :=
  start.toList.isPrefixOf text.toList

/-- The content of a text that is `label`, an opening bracket, the content and a closing bracket. -/
def bracketed? (label text : String) : Option String :=
  if startsWith (label ++ "[") text then
    dropLast? ']' (String.ofList (text.toList.drop (label.length + 1)))
  else none

/-- The parts of a text between the occurrences of `c`, one more than there are. -/
def splitOn (c : Char) (text : String) : List String :=
  (text.toList.splitOn c).map String.ofList

/-- The text before the first `c` and the text after it. -/
def splitFirst (c : Char) (text : String) : String × String :=
  (String.ofList (text.toList.takeWhile (· != c)),
    String.ofList ((text.toList.dropWhile (· != c)).drop 1))

end Dataflow.Text
