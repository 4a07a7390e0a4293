import Dataflow.Json
import Dataflow.Text.Digit

/-!
# Reading JSON

`Json.read? text` is the value of a JSON text, if it is one. The reader takes the grammar of the
standard with these limits:

* arrays and objects nest at most `maxNesting` deep;
* a number that no double can hold is refused, as are escaped surrogates without their partner;
* nothing but blanks may stand before or after the value, so a byte order mark is refused.

An integer of 64 bits is kept as such; a larger one, and the negative zero, are decimal fractions.
-/

namespace Dataflow.Json

/-- How deep arrays and objects may nest. -/
def maxNesting : Nat := 127

/-- Blanks between the parts of a JSON text. -/
def isBlank (c : Char) : Bool :=
  c == ' ' || c == '\n' || c == '\t' || c == '\r'

/-- The text after leading blanks. -/
def skipBlanks (cs : List Char) : List Char :=
  cs.dropWhile isBlank

/-! ## Strings -/

/-- A code unit that starts a surrogate pair. -/
def isHighSurrogate (n : Nat) : Bool :=
  0xD800 ≤ n && n < 0xDC00

/-- A code unit that ends a surrogate pair. -/
def isLowSurrogate (n : Nat) : Bool :=
  0xDC00 ≤ n && n < 0xE000

/-- The code point of a surrogate pair. -/
def pairValue (high low : Nat) : Nat :=
  0x10000 + (high - 0xD800) * 0x400 + (low - 0xDC00)

/-- The character of a one-letter escape. -/
def simpleEscape? (c : Char) : Option Char :=
  match c with
  | '"' => some '"'
  | '\\' => some '\\'
  | '/' => some '/'
  | 'b' => some '\x08'
  | 'f' => some '\x0c'
  | 'n' => some '\n'
  | 'r' => some '\r'
  | 't' => some '\t'
  | _ => none

/-- The characters up to the closing quote and the text after it. `high` is an escaped surrogate
that waits for its partner. -/
def readChars : Option Nat → List Char → Option (List Char × List Char)
  | none, '"' :: rest => some ([], rest)
  | high, '\\' :: 'u' :: a :: b :: c :: d :: rest =>
    match high, Text.hexadecimalValue? [a, b, c, d] with
    | _, none => none
    | some first, some value =>
      if isLowSurrogate value then
        (readChars none rest).map fun (cs, rest) => (Char.ofNat (pairValue first value) :: cs, rest)
      else none
    | none, some value =>
      if isHighSurrogate value then readChars (some value) rest
      else if isLowSurrogate value then none
      else (readChars none rest).map fun (cs, rest) => (Char.ofNat value :: cs, rest)
  | none, '\\' :: c :: rest =>
    match simpleEscape? c with
    | some value => (readChars none rest).map fun (cs, rest) => (value :: cs, rest)
    | none => none
  | none, c :: rest =>
    if c.toNat < 32 then none else (readChars none rest).map fun (cs, rest) => (c :: cs, rest)
  | _, _ => none

/-- The text after an opening quote up to the closing one, and what follows. -/
def readString? (cs : List Char) : Option (String × List Char) :=
  (readChars none cs).map fun (cs, rest) => (String.ofList cs, rest)

/-! ## Numbers -/

/-- The digits at the start of a text and what follows. -/
def takeDigits (cs : List Char) : List Char × List Char :=
  (cs.takeWhile Text.isAsciiDigit, cs.dropWhile Text.isAsciiDigit)

/-- The digits of an integer: no zero in front of others. -/
def readIntegerDigits? (cs : List Char) : Option (List Char × List Char) :=
  match takeDigits cs with
  | ([], _) => none
  | (['0'], rest) => some (['0'], rest)
  | ('0' :: _, _) => none
  | (digits, rest) => some (digits, rest)

/-- The digits after a point, if there is one. -/
def readFraction? : List Char → Option (Option (List Char) × List Char)
  | '.' :: rest =>
    match takeDigits rest with
    | ([], _) => none
    | (digits, rest) => some (some digits, rest)
  | rest => some (none, rest)

/-- The value of exponent digits with a sign. -/
def readSignedDigits? (negative : Bool) (cs : List Char) : Option (Int × List Char) :=
  match takeDigits cs with
  | ([], _) => none
  | (digits, rest) =>
    let value : Int := Text.decimalValue digits
    some (if negative then -value else value, rest)

/-- The exponent, if there is one. -/
def readExponent? : List Char → Option (Option Int × List Char)
  | c :: rest =>
    if c = 'e' ∨ c = 'E' then
      let read :=
        match rest with
        | '+' :: rest => readSignedDigits? false rest
        | '-' :: rest => readSignedDigits? true rest
        | rest => readSignedDigits? false rest
      read.map fun (value, rest) => (some value, rest)
    else some (none, c :: rest)
  | [] => some (none, [])

/-- An integer of 64 bits, with or without a sign. -/
def fitsWord (n : Int) : Bool :=
  -Int.pow 2 63 ≤ n && n < Int.pow 2 64

/-- The number of a sign, integer digits, fraction digits and an exponent. -/
def numberOf? (negative : Bool) (digits : List Char) (fraction : Option (List Char))
    (exponent : Option Int) : Option Number :=
  let value := Text.decimalValue (digits ++ fraction.getD [])
  let power : Int := exponent.getD 0 - (fraction.getD []).length
  let signed : Int := if negative then -value else value
  if fraction.isNone && exponent.isNone && fitsWord signed && !(negative && value == 0) then
    some (.integer signed)
  else if Number.fitsDouble value power then some (.normalize negative value power)
  else none

/-- The number at the start of a text and what follows. -/
def readNumber? (cs : List Char) : Option (Number × List Char) := do
  let (negative, cs) :=
    match cs with
    | '-' :: rest => (true, rest)
    | rest => (false, rest)
  let (digits, cs) ← readIntegerDigits? cs
  let (fraction, cs) ← readFraction? cs
  let (exponent, cs) ← readExponent? cs
  let value ← numberOf? negative digits fraction exponent
  return (value, cs)

/-! ## Values -/

mutual

/-- The value at the start of a text, with `room` levels left, and what follows. The first argument
bounds the steps; the length of the text is enough. -/
def readValue : Nat → Nat → List Char → Option (Json × List Char)
  | 0, _, _ => none
  | steps + 1, room, cs =>
    match skipBlanks cs with
    | 'n' :: 'u' :: 'l' :: 'l' :: rest => some (.null, rest)
    | 't' :: 'r' :: 'u' :: 'e' :: rest => some (.boolean true, rest)
    | 'f' :: 'a' :: 'l' :: 's' :: 'e' :: rest => some (.boolean false, rest)
    | '"' :: rest => (readString? rest).map fun (text, rest) => (.string text, rest)
    | '[' :: rest =>
      match room, skipBlanks rest with
      | 0, _ => none
      | _ + 1, ']' :: rest => some (.array [], rest)
      | room + 1, rest =>
        (readItems steps room rest).map fun (items, rest) => (.array items, rest)
    | '\x7b' :: rest =>
      match room, skipBlanks rest with
      | 0, _ => none
      | _ + 1, '\x7d' :: rest => some (.object [], rest)
      | room + 1, rest =>
        (readEntries steps room rest).map fun (entries, rest) => (.object entries, rest)
    | rest => (readNumber? rest).map fun (value, rest) => (.number value, rest)

/-- The elements of an array up to its closing bracket. -/
def readItems : Nat → Nat → List Char → Option (List Json × List Char)
  | 0, _, _ => none
  | steps + 1, room, cs =>
    match readValue steps room cs with
    | none => none
    | some (item, rest) =>
      match skipBlanks rest with
      | ']' :: rest => some ([item], rest)
      | ',' :: rest =>
        (readItems steps room rest).map fun (items, rest) => (item :: items, rest)
      | _ => none

/-- The entries of an object up to its closing brace. -/
def readEntries : Nat → Nat → List Char → Option (List (String × Json) × List Char)
  | 0, _, _ => none
  | steps + 1, room, cs =>
    match readKey? cs with
    | none => none
    | some (key, rest) =>
      match readValue steps room rest with
      | none => none
      | some (value, rest) =>
        match skipBlanks rest with
        | '\x7d' :: rest => some ([(key, value)], rest)
        | ',' :: rest =>
          (readEntries steps room rest).map fun (entries, rest) => ((key, value) :: entries, rest)
        | _ => none

/-- A key and the colon after it. -/
def readKey? (cs : List Char) : Option (String × List Char) :=
  match skipBlanks cs with
  | '"' :: rest =>
    match readString? rest with
    | some (key, rest) =>
      match skipBlanks rest with
      | ':' :: rest => some (key, rest)
      | _ => none
    | none => none
  | _ => none

end

/-- The value of a JSON text. -/
def read? (text : String) : Option Json :=
  let cs := text.toList
  match readValue (2 * cs.length + 2) maxNesting cs with
  | some (json, rest) => if (skipBlanks rest).isEmpty then some json else none
  | none => none

end Dataflow.Json
