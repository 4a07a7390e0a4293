/-!
# Numbers of a data text

A number is an integer or a decimal fraction, kept apart by how they are written: a decimal fraction
always shows a point or an exponent.

* `Number.decimal negative digits exponent` is `digits * 10 ^ exponent` with a sign; `normalize`
  leaves no trailing zero among the digits.
* `fitsDouble`: some double is near a decimal fraction.
* `render`: the fewest digits; positional from `0.00001` up to sixteen digits before the point, with
  an exponent outside.
-/

namespace Dataflow

/-- A number as it stands in a data text. -/
inductive Number where
  | integer (value : Int)
  | decimal (negative : Bool) (digits : Nat) (exponent : Int)
  deriving DecidableEq, Repr

namespace Number

/-- The decimal digits of a natural number. -/
def digitsOf (n : Nat) : List Char :=
  Nat.toDigits 10 n

/-- Move the trailing zeros of the last `limit` digits into the exponent. -/
def dropZeros : Nat → Nat → Int → Nat × Int
  | 0, digits, exponent => (digits, exponent)
  | limit + 1, digits, exponent =>
    if digits % 10 = 0 then dropZeros limit (digits / 10) (exponent + 1) else (digits, exponent)

/-- The decimal fraction without trailing zeros among its digits; zero has exponent zero. -/
def normalize (negative : Bool) (digits : Nat) (exponent : Int) : Number :=
  if digits = 0 then .decimal negative 0 0
  else
    let (digits, exponent) := dropZeros (digitsOf digits).length digits exponent
    .decimal negative digits exponent

/-- The least value that rounds beyond the doubles. -/
def doubleLimit : Nat :=
  Nat.pow 2 1024 - Nat.pow 2 970

/-- Some double is near `digits * 10 ^ exponent`. -/
def fitsDouble (digits : Nat) (exponent : Int) : Bool :=
  let size : Int := (digitsOf digits).length + exponent
  digits == 0 || size < 309 ||
    (size == 309 &&
      decide (digits * Nat.pow 10 exponent.toNat <
        doubleLimit * Nat.pow 10 (-exponent).toNat))

/-- A run of zeros. -/
def zeros (n : Nat) : List Char :=
  List.replicate n '0'

/-- Digits with a point after the first one, if there are more. -/
def withPoint : List Char → List Char
  | [] => []
  | [d] => [d]
  | d :: ds => d :: '.' :: ds

/-- An integer in decimal notation. -/
def integerText (n : Int) : List Char :=
  if n < 0 then '-' :: digitsOf n.natAbs else digitsOf n.natAbs

/-- A positive decimal fraction: digits whose point stands after `point` of them. -/
def fractionText (ds : List Char) (exponent point : Int) : List Char :=
  if 0 ≤ exponent ∧ point ≤ 16 then ds ++ zeros exponent.toNat ++ ['.', '0']
  else if 0 < point ∧ point ≤ 16 then ds.take point.toNat ++ '.' :: ds.drop point.toNat
  else if -5 < point ∧ point ≤ 0 then '0' :: '.' :: zeros (-point).toNat ++ ds
  else withPoint ds ++ 'e' :: integerText (point - 1)

/-- The text of a number. -/
def render : Number → String
  | .integer value => String.ofList (integerText value)
  | .decimal negative digits exponent =>
    let ds := digitsOf digits
    let body := fractionText ds exponent (ds.length + exponent)
    String.ofList (if negative then '-' :: body else body)

end Number

end Dataflow
