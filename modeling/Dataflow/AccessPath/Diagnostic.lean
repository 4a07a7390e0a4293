import Dataflow.AccessPath
import Dataflow.Named

/-!
# Well-formed tokens and diagnostics

A well-formed token is a word of ASCII letters, digits and underscores, which may be followed by one
pair of brackets around characters other than brackets.

* `isWellFormed`: the check of one token text.
* `diagnostics path`: one diagnostic for each offending token of a path, in token order.
-/

namespace Dataflow.AccessPath

/-! ## The token grammar -/

/-- A character of a token's word. -/
def isWordChar (c : Char) : Bool :=
  c.isAlphanum || c == '_'

/-- A square bracket. -/
def isBracket (c : Char) : Bool :=
  c == '[' || c == ']'

/-- The text after a token's word: nothing, or one pair of brackets. -/
def isBracketPart : List Char → Bool
  | [] => true
  | c :: cs => c == '[' && cs.dropWhile (fun d => !isBracket d) == [']']

/-- A token text is a word and perhaps one pair of brackets. -/
def isWellFormed (text : String) : Bool :=
  let cs := text.toList
  !(cs.takeWhile isWordChar).isEmpty && isBracketPart (cs.dropWhile isWordChar)

/-! ## Diagnostics -/

/-- What can be wrong with a token. -/
inductive Problem where
  | malformed
  | emptyToken
  deriving DecidableEq, Repr

/-- The text shown for a problem. -/
def Problem.message : Problem → String
  | malformed => "Invalid access path"
  | emptyToken => "Unexpected empty token"

instance : Named Problem where
  all := [.malformed, .emptyToken]
  name := Problem.message

/-- A problem and the range of the token it concerns. -/
structure Diagnostic where
  range : Range
  problem : Problem
  deriving DecidableEq, Repr

/-- The problem of a token, if it has one. -/
def Token.problem? (token : Token) : Option Problem :=
  if token.range.isEmpty then some .emptyToken
  else if isWellFormed token.text then none
  else some .malformed

/-- The diagnostics of a path, in token order. -/
def diagnostics (path : String) : List Diagnostic :=
  (tokens path).filterMap fun token => token.problem?.map (Diagnostic.mk token.range)

end Dataflow.AccessPath
