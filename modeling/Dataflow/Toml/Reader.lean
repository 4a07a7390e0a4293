import Dataflow.Number
import Dataflow.Text.Digit
import Dataflow.Toml

/-!
# Reading TOML

`Toml.read? text` is the document of a TOML 1.0 text, if it is one. The reader takes the grammar of
the standard with these limits:

* arrays and tables in braces nest at most `maxNesting` deep, and a key has at most as many parts;
* integers have 64 bits with a sign, and a positive float must not round to infinity;
* a moment must name a day of its month; a second may be the sixtieth.

A byte order mark in front is skipped.
-/

namespace Dataflow.Toml

/-- How deep arrays and tables in braces may nest, and how many parts a key may have. -/
def maxNesting : Nat := 79

/-! ## Blanks, comments and line ends -/

/-- A blank within a line. -/
def isBlank (c : Char) : Bool :=
  c == ' ' || c == '\t'

/-- The text after leading blanks. -/
def skipBlanks (cs : List Char) : List Char :=
  cs.dropWhile isBlank

/-- A character that may stand in a comment or a string: no control character but the tab. -/
def isPlain (c : Char) : Bool :=
  c == '\t' || (' ' ≤ c && c != '\x7f')

/-- The text after a line end. -/
def lineEnd? : List Char → Option (List Char)
  | '\n' :: rest => some rest
  | '\r' :: '\n' :: rest => some rest
  | _ => none

/-- The text after a comment, if one stands here. -/
def skipComment : List Char → List Char
  | '#' :: rest => rest.dropWhile isPlain
  | rest => rest

/-- The text after blanks, a comment and the end of the line or of the text. -/
def closeLine? (cs : List Char) : Option (List Char) :=
  match skipComment (skipBlanks cs) with
  | [] => some []
  | rest => lineEnd? rest

/-- The text after blanks, comments and line ends. -/
def skipSpace (inComment : Bool) : List Char → List Char
  | [] => []
  | c :: cs =>
    if c == '\n' || (c == '\r' && cs.head? == some '\n') then skipSpace false cs
    else if isBlank c || (inComment && isPlain c) then skipSpace inComment cs
    else if c == '#' then skipSpace true cs
    else c :: cs

/-! ## Strings -/

/-- The character of a one-letter escape. -/
def simpleEscape? (c : Char) : Option Char :=
  match c with
  | '"' => some '"'
  | '\\' => some '\\'
  | 'b' => some '\x08'
  | 'f' => some '\x0c'
  | 'n' => some '\n'
  | 'r' => some '\r'
  | 't' => some '\t'
  | _ => none

/-- The character of an escape by its code point. -/
def codedChar? (digits : List Char) : Option Char :=
  (Text.hexadecimalValue? digits).bind fun n => if n.isValidChar then some (Char.ofNat n) else none

/-- Put characters in front of what was read. -/
def prepend {α : Type} (c : Char) (read : Option (List Char × α)) : Option (List Char × α) :=
  read.map fun (cs, rest) => (c :: cs, rest)

/-- The quotes that belong to a text of several lines, and the text after it, when its three closing
quotes stand here. Up to two quotes may stand in front of them. -/
def closing? (quote : Char) (cs : List Char) : Option (List Char × List Char) :=
  let run := (cs.takeWhile (· == quote)).length
  if run < 3 then none
  else
    let kept := min (run - 3) 2
    some (List.replicate kept quote, cs.drop (kept + 3))

/-- A character of a string, with the text after it. A line end is read as a line feed, and only a
text of several lines may have one. -/
def stringChar? (block : Bool) (c : Char) (rest : List Char) : Bool :=
  isPlain c || (block && (c == '\n' || (c == '\r' && rest.head? == some '\n')))

/-- The characters of a basic string up to its closing quotes. `block` tells a text of several
lines; `trimming` skips blanks and line ends after a backslash at the end of a line. -/
def readBasic (block : Bool) : Bool → List Char → Option (List Char × List Char)
  | _, '\\' :: 'u' :: a :: b :: c :: d :: rest =>
    (codedChar? [a, b, c, d]).bind fun value => prepend value (readBasic block false rest)
  | _, '\\' :: 'U' :: a :: b :: c :: d :: e :: f :: g :: h :: rest =>
    (codedChar? [a, b, c, d, e, f, g, h]).bind fun value =>
      prepend value (readBasic block false rest)
  | _, '\\' :: c :: rest =>
    match simpleEscape? c with
    | some value => prepend value (readBasic block false rest)
    | none =>
      if block && (lineEnd? (skipBlanks (c :: rest))).isSome then readBasic block true (c :: rest)
      else none
  | trimming, c :: rest =>
    if trimming && (isBlank c || c == '\n' || (c == '\r' && rest.head? == some '\n')) then
      readBasic block true rest
    else if c == '"' then
      if block then
        match closing? '"' (c :: rest) with
        | some closed => some closed
        | none => prepend c (readBasic block false rest)
      else some ([], rest)
    else if c == '\\' || !stringChar? block c rest then none
    else if c == '\r' then readBasic block false rest
    else prepend c (readBasic block false rest)
  | _, [] => none

/-- The characters of a literal string up to its closing quotes, without escapes. -/
def readLiteral (block : Bool) : List Char → Option (List Char × List Char)
  | [] => none
  | c :: rest =>
    if c == '\x27' then
      if block then
        match closing? c (c :: rest) with
        | some closed => some closed
        | none => prepend c (readLiteral block rest)
      else some ([], rest)
    else if !stringChar? block c rest then none
    else if c == '\r' then readLiteral block rest
    else prepend c (readLiteral block rest)

/-- The text after a line end, if one stands here. -/
def skipLineEnd (cs : List Char) : List Char :=
  (lineEnd? cs).getD cs

/-- A string on one line. -/
def readLineString? : List Char → Option (List Char × List Char)
  | '"' :: rest => readBasic false false rest
  | '\x27' :: rest => readLiteral false rest
  | _ => none

/-- A string. -/
def readString? : List Char → Option (List Char × List Char)
  | '"' :: '"' :: '"' :: rest => readBasic true false (skipLineEnd rest)
  | '\x27' :: '\x27' :: '\x27' :: rest => readLiteral true (skipLineEnd rest)
  | cs => readLineString? cs

/-! ## Keys -/

/-- A character of a key without quotes. -/
def isBare (c : Char) : Bool :=
  c.isAlphanum || c == '_' || c == '-'

/-- A part of a key. -/
def readPart? (cs : List Char) : Option (String × List Char) :=
  let bare := cs.takeWhile isBare
  if bare.isEmpty then (readLineString? cs).map fun (part, rest) => (String.ofList part, rest)
  else some (String.ofList bare, cs.dropWhile isBare)

/-- At most so many parts of a key, separated by dots, with blanks around each. -/
def readParts? : Nat → List Char → Option (List String × List Char)
  | 0, _ => none
  | room + 1, cs =>
    match readPart? (skipBlanks cs) with
    | none => none
    | some (part, rest) =>
      match skipBlanks rest with
      | '.' :: rest => (readParts? room rest).map fun (parts, rest) => (part :: parts, rest)
      | rest => some ([part], rest)

/-- A key. -/
def readKey? (cs : List Char) : Option (Key × List Char) := do
  let (parts, rest) ← readParts? maxNesting cs
  let key ← Key.ofParts? parts
  return (key, rest)

/-! ## Numbers -/

/-- More digits of a number. A single underscore may stand between two of them. -/
def readMoreDigits (isDigit : Char → Bool) : List Char → Option (List Char × List Char)
  | [] => some ([], [])
  | '_' :: c :: rest => if isDigit c then prepend c (readMoreDigits isDigit rest) else none
  | c :: rest =>
    if c == '_' then none
    else if isDigit c then prepend c (readMoreDigits isDigit rest)
    else some ([], c :: rest)

/-- The digits of a number, at least one. -/
def readDigits? (isDigit : Char → Bool) : List Char → Option (List Char × List Char)
  | [] => none
  | c :: rest => if isDigit c then prepend c (readMoreDigits isDigit rest) else none

/-- The digits in front of a point: no zero in front of others. -/
def readWhole? : List Char → Option (List Char × List Char)
  | '0' :: rest => some (['0'], rest)
  | cs => readDigits? Text.isAsciiDigit cs

/-- A sign, which is true for a minus. -/
def readSign : List Char → Bool × List Char
  | '-' :: rest => (true, rest)
  | '+' :: rest => (false, rest)
  | rest => (false, rest)

/-- The digits after a point, if there is one. -/
def readFraction? : List Char → Option (Option (List Char) × List Char)
  | '.' :: rest => (readDigits? Text.isAsciiDigit rest).map fun (ds, rest) => (some ds, rest)
  | rest => some (none, rest)

/-- The exponent, if there is one. -/
def readExponent? : List Char → Option (Option Int × List Char)
  | c :: rest =>
    if c == 'e' || c == 'E' then
      let (negative, rest) := readSign rest
      (readDigits? Text.isAsciiDigit rest).map fun (ds, rest) =>
        let value : Int := Text.decimalValue ds
        (some (if negative then -value else value), rest)
    else some (none, c :: rest)
  | [] => some (none, [])

/-- An integer of 64 bits with a sign. -/
def integer? (value : Int) : Option Toml :=
  if -Int.pow 2 63 ≤ value ∧ value < Int.pow 2 63 then some (.integer value) else none

/-- What stands between the start of a text and its rest. -/
def written (cs rest : List Char) : String :=
  String.ofList (cs.take (cs.length - rest.length))

/-- The text after `inf` or `nan`. -/
def readSpecial? : List Char → Option (List Char)
  | 'i' :: 'n' :: 'f' :: rest => some rest
  | 'n' :: 'a' :: 'n' :: rest => some rest
  | _ => none

/-- The decimal number at the start of a text. -/
def readDecimal? (cs : List Char) : Option (Toml × List Char) :=
  let (negative, unsigned) := readSign cs
  match readSpecial? unsigned with
  | some rest => some (.float (written cs rest), rest)
  | none => do
    let (whole, rest) ← readWhole? unsigned
    let (fraction, rest) ← readFraction? rest
    let (exponent, rest) ← readExponent? rest
    if fraction.isNone && exponent.isNone then
      let value : Int := Text.decimalValue whole
      let integer ← integer? (if negative then -value else value)
      return (integer, rest)
    else
      let digits := Text.decimalValue (whole ++ fraction.getD [])
      let power : Int := exponent.getD 0 - (fraction.getD []).length
      if negative || Number.fitsDouble digits power then return (.float (written cs rest), rest)
      else none

/-- An integer in another base after its mark. -/
def readBased? (base : Nat) (cs : List Char) : Option (Toml × List Char) := do
  let isDigit (c : Char) : Bool := (Text.hexValue? c).any (· < base)
  let (digits, rest) ← readDigits? isDigit cs
  let integer ← (digits.mapM Text.hexValue?).bind fun ds => integer? (Text.valueOf base ds)
  return (integer, rest)

/-- The number at the start of a text. -/
def readNumber? : List Char → Option (Toml × List Char)
  | '0' :: 'x' :: rest => readBased? 16 rest
  | '0' :: 'o' :: rest => readBased? 8 rest
  | '0' :: 'b' :: rest => readBased? 2 rest
  | cs => readDecimal? cs

/-! ## Moments -/

/-- The number of so many digits. -/
def readCount? (count : Nat) (cs : List Char) : Option (Nat × List Char) :=
  let digits := cs.take count
  if digits.length = count ∧ digits.all Text.isAsciiDigit then
    some (Text.decimalValue digits, cs.drop count)
  else none

/-- The number of two digits, if it is in a range. -/
def readPair? (least most : Nat) (cs : List Char) : Option (Nat × List Char) :=
  (readCount? 2 cs).filter fun (n, _) => least ≤ n && n ≤ most

/-- The text after a given character. -/
def readMark? (mark : Char) : List Char → Option (List Char)
  | [] => none
  | c :: rest => if c = mark then some rest else none

/-- The number of days of a month. -/
def daysOf (year month : Nat) : Nat :=
  if month = 2 then
    if year % 4 = 0 ∧ (year % 100 ≠ 0 ∨ year % 400 = 0) then 29 else 28
  else if month = 4 ∨ month = 6 ∨ month = 9 ∨ month = 11 then 30
  else 31

/-- The text after a day. -/
def readDay? (cs : List Char) : Option (List Char) := do
  let (year, cs) ← readCount? 4 cs
  let cs ← readMark? '-' cs
  let (month, cs) ← readPair? 1 12 cs
  let cs ← readMark? '-' cs
  let (_, cs) ← readPair? 1 (daysOf year month) cs
  return cs

/-- The text after the digits of a fraction of a second, if there is one. -/
def skipFraction : List Char → List Char
  | '.' :: c :: rest =>
    if Text.isAsciiDigit c then rest.dropWhile Text.isAsciiDigit else '.' :: c :: rest
  | rest => rest

/-- The text after a time of day. -/
def readTime? (cs : List Char) : Option (List Char) := do
  let (_, cs) ← readPair? 0 23 cs
  let cs ← readMark? ':' cs
  let (_, cs) ← readPair? 0 59 cs
  let cs ← readMark? ':' cs
  let (_, cs) ← readPair? 0 60 cs
  return skipFraction cs

/-- The text after the distance from universal time in hours and minutes. -/
def readDistance? (cs : List Char) : Option (List Char) := do
  let (_, cs) ← readPair? 0 23 cs
  let cs ← readMark? ':' cs
  let (_, cs) ← readPair? 0 59 cs
  return cs

/-- The text after a time zone, if there is one. -/
def skipZone : List Char → List Char
  | [] => []
  | c :: rest =>
    if c == 'Z' || c == 'z' then rest
    else if c == '+' || c == '-' then (readDistance? rest).getD (c :: rest)
    else c :: rest

/-- The text after a time of day that follows a day, if there is one. -/
def skipTimeOfDay : List Char → List Char
  | [] => []
  | c :: rest =>
    if c == 'T' || c == 't' || c == ' ' then ((readTime? rest).map skipZone).getD (c :: rest)
    else c :: rest

/-- The moment at the start of a text: a day, a time of day or both. -/
def readMoment? (cs : List Char) : Option (Toml × List Char) :=
  (((readDay? cs).map skipTimeOfDay).or (readTime? cs)).map fun rest =>
    (.moment (written cs rest), rest)

/-! ## Values -/

/-- A value that is no array and no table. -/
def readScalar? : List Char → Option (Toml × List Char)
  | 't' :: 'r' :: 'u' :: 'e' :: rest => some (.boolean true, rest)
  | 'f' :: 'a' :: 'l' :: 's' :: 'e' :: rest => some (.boolean false, rest)
  | cs =>
    match cs.head? with
    | none => none
    | some c =>
      if c == '"' || c == '\x27' then
        (readString? cs).map fun (chars, rest) => (.text (String.ofList chars), rest)
      else (readMoment? cs).or (readNumber? cs)

mutual

/-- The value at the start of a text, with `room` levels left, and what follows. The first argument
bounds the steps; the length of the text is enough. -/
def readValue : Nat → Nat → List Char → Option (Toml × List Char)
  | 0, _, _ => none
  | steps + 1, room, cs =>
    match room, cs with
    | 0, '[' :: _ => none
    | room + 1, '[' :: rest =>
      (readItems steps room rest).map fun (items, rest) => (.array items, rest)
    | 0, '\x7b' :: _ => none
    | room + 1, '\x7b' :: rest =>
      match skipBlanks rest with
      | '\x7d' :: rest => some (.table .braces [], rest)
      | rest =>
        match readPairs steps room rest with
        | some (pairs, rest) => (ofPairs? pairs).map fun table => (table, rest)
        | none => none
    | _, cs => readScalar? cs

/-- The elements of an array up to its closing bracket. A comma may stand after the last one. -/
def readItems : Nat → Nat → List Char → Option (List Toml × List Char)
  | 0, _, _ => none
  | steps + 1, room, cs =>
    match skipSpace false cs with
    | ']' :: rest => some ([], rest)
    | cs =>
      match readValue steps room cs with
      | none => none
      | some (item, rest) =>
        match skipSpace false rest with
        | ']' :: rest => some ([item], rest)
        | ',' :: rest =>
          (readItems steps room rest).map fun (items, rest) => (item :: items, rest)
        | _ => none

/-- The pairs of a table up to its closing brace. No comma may stand after the last one. -/
def readPairs : Nat → Nat → List Char → Option (List (Key × Toml) × List Char)
  | 0, _, _ => none
  | steps + 1, room, cs =>
    match readKey? cs with
    | some (key, '=' :: rest) =>
      match readValue steps room (skipBlanks rest) with
      | none => none
      | some (value, rest) =>
        match skipBlanks rest with
        | '\x7d' :: rest => some ([(key, value)], rest)
        | ',' :: rest =>
          (readPairs steps room rest).map fun (pairs, rest) => ((key, value) :: pairs, rest)
        | _ => none
    | _ => none

end

/-! ## Documents -/

/-- The statement at the start of a text and what follows its line. -/
def readStatement? : List Char → Option (Statement × List Char)
  | '[' :: '[' :: rest =>
    match readKey? rest with
    | some (key, ']' :: ']' :: rest) => (closeLine? rest).map fun rest => (.element key, rest)
    | _ => none
  | '[' :: rest =>
    match readKey? rest with
    | some (key, ']' :: rest) => (closeLine? rest).map fun rest => (.table key, rest)
    | _ => none
  | cs =>
    match readKey? cs with
    | some (key, '=' :: rest) =>
      match readValue (2 * rest.length + 2) maxNesting (skipBlanks rest) with
      | some (value, rest) => (closeLine? rest).map fun rest => (.pair key value, rest)
      | none => none
    | _ => none

/-- The statements of a text. The first argument bounds the lines. -/
def readStatements : Nat → List Char → Option (List Statement)
  | 0, _ => none
  | lines + 1, cs =>
    match skipBlanks cs with
    | [] => some []
    | cs =>
      match closeLine? cs with
      | some rest => readStatements lines rest
      | none =>
        match readStatement? cs with
        | some (statement, rest) => (readStatements lines rest).map (statement :: ·)
        | none => none

/-- The text after a byte order mark, if one stands in front. -/
def skipMark : List Char → List Char
  | '\ufeff' :: rest => rest
  | rest => rest

/-- The entries of the document of a TOML text. -/
def read? (text : String) : Option Entries :=
  let cs := skipMark text.toList
  (readStatements (cs.length + 1) cs).bind ofStatements?

end Dataflow.Toml
