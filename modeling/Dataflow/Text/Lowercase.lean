import Dataflow.Text.Lowercase.Table

/-!
# Lower case

`lowercase` maps a text to lower case by the full case mapping of the Unicode standard:

* a character has at most one lower-case form, which is one character for all but `İ`, which becomes
  `i` and a combining dot above;
* a capital sigma is written `ς` at the end of a word and `σ` elsewhere. It ends a word when a cased
  character stands before it and none after it, case-ignorable characters being skipped.
-/

namespace Dataflow.Text

namespace Lowercase

/-- The lower-case code point of `n` by a table of runs, `n` itself when no run holds it. -/
def ofRuns (n : Nat) : List (Nat × Nat × Nat × Nat) → Nat
  | [] => n
  | (first, last, step, target) :: runs =>
    if n < first then n
    else if n ≤ last ∧ (n - first) % step = 0 then target + (n - first)
    else ofRuns n runs

/-- Membership in a table of inclusive ranges in increasing order. -/
def inRanges (n : Nat) : List (Nat × Nat) → Bool
  | [] => false
  | (first, last) :: ranges => first ≤ n && (n ≤ last || inRanges n ranges)

/-- The lower-case form of a character on its own. -/
def ofChar (c : Char) : List Char :=
  if c = 'İ' then ['i', '\u0307'] else [Char.ofNat (ofRuns c.toNat lowerRuns)]

/-- The first character that is not case-ignorable is cased. -/
def meetsCased : List Char → Bool
  | [] => false
  | c :: cs =>
    if inRanges c.toNat ignorableRanges then meetsCased cs else inRanges c.toNat casedRanges

/-- A capital sigma between `before`, read backwards, and `after` ends a word. -/
def endsWord (before after : List Char) : Bool :=
  meetsCased before && !meetsCased after

/-- The lower-case form of a text that follows `before`, read backwards. -/
def following (before : List Char) : List Char → List Char
  | [] => []
  | c :: after =>
    (if c = 'Σ' then [if endsWord before after then 'ς' else 'σ'] else ofChar c)
      ++ following (c :: before) after

end Lowercase

/-- The lower-case form of a text. -/
def lowercase (text : String) : String :=
  String.ofList (Lowercase.following [] text.toList)

end Dataflow.Text
