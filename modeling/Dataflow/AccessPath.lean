/-!
# Access paths and their tokens

An access path such as `Argument[0].Field[foo.Bar]` names a position relative to an endpoint. It is
cut into tokens at every dot at bracket depth zero. The depth is signed and runs through the whole
path, so a path with unbalanced brackets has tokens too.

* `pieces depth cs`: the texts between the dots of `cs`, read from bracket depth `depth`.
* `tokens path`: the tokens of a path with the code points they cover. The empty path has none, any
  other path has one more than it has dots at depth zero.
* `join`, `append`: token texts, or two paths, put together with dots.
-/

namespace Dataflow

/-- A half-open range of code points. -/
structure Range where
  start : Nat
  stop : Nat
  deriving DecidableEq, Repr

/-- A range that covers no code point. -/
def Range.isEmpty (range : Range) : Bool :=
  range.start == range.stop

namespace AccessPath

/-- A token of an access path: its text and where the text stands. -/
structure Token where
  text : String
  range : Range
  deriving DecidableEq, Repr

/-! ## Cutting at dots -/

/-- What a character adds to the bracket depth. -/
def depthChange (c : Char) : Int :=
  if c = '[' then 1 else if c = ']' then -1 else 0

/-- Put a character in front of the first piece. -/
def consFirst (c : Char) : List (List Char) → List (List Char)
  | [] => [[c]]
  | piece :: rest => (c :: piece) :: rest

/-- The pieces of a text read from bracket depth `depth`: a dot at depth zero ends a piece. -/
def pieces : Int → List Char → List (List Char)
  | _, [] => [[]]
  | depth, c :: cs =>
    if c = '.' ∧ depth = 0 then [] :: pieces 0 cs
    else consFirst c (pieces (depth + depthChange c) cs)

/-- The token texts of a path. -/
def texts (path : String) : List String :=
  if path = "" then [] else (pieces 0 path.toList).map String.ofList

/-- Texts laid out from `start`, one code point apart. -/
def layOut : Nat → List String → List Token
  | _, [] => []
  | start, text :: rest =>
    ⟨text, start, start + text.length⟩ :: layOut (start + text.length + 1) rest

/-- The tokens of a path. -/
def tokens (path : String) : List Token :=
  layOut 0 (texts path)

/-! ## Putting together -/

/-- Token texts with a dot between any two. -/
def join (texts : List String) : String :=
  ".".intercalate texts

/-- One path after another, without a dot when either is empty. -/
def append (front back : String) : String :=
  if front = "" then back else if back = "" then front else front ++ "." ++ back

end AccessPath

end Dataflow
