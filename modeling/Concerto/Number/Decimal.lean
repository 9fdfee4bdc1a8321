import Concerto.Number.Double
import Concerto.Text.Digit

/-!
Numbers in decimal notation.

* `Decimal`: a sign, a coefficient and a power of ten;
* `Decimal.read?`: the number that a text denotes: a sign, digits with or without a point, and
  an exponent;
* `Decimal.toDouble`: the double nearest to it.
-/

namespace Concerto

/-- The number `± coefficient · 10 ^ exponent`. -/
structure Decimal where
  negative : Bool
  coefficient : Nat
  exponent : Int
  deriving DecidableEq, Repr

/-- The number that digits denote, the first one counting most. -/
def ofDigits (digits : List Nat) : Nat := digits.foldl (fun n d => 10 * n + d) 0

/-- The digits at the beginning of a text, with their values, and the text after them. -/
def spanDigits (digit? : Char → Option Nat) : List Char → List Nat × List Char
  | [] => ([], [])
  | c :: cs =>
    match digit? c with
    | some d => let (ds, rest) := spanDigits digit? cs; (d :: ds, rest)
    | none => ([], c :: cs)

/-- A sign at the beginning of a text, and the text after it. -/
def spanSign : List Char → Bool × List Char
  | '-' :: cs => (true, cs)
  | '+' :: cs => (false, cs)
  | cs => (false, cs)

namespace Decimal

/-- The exponent part of a number: an `e` of either case, a sign, and digits. A text without
one denotes the exponent zero. -/
def readExponent? (digit? : Char → Option Nat) : List Char → Option Int
  | [] => some 0
  | c :: cs =>
    if c = 'e' ∨ c = 'E' then
      let (negative, cs) := spanSign cs
      match spanDigits digit? cs with
      | (d :: ds, []) =>
        some (if negative then -(ofDigits (d :: ds) : Int) else ofDigits (d :: ds))
      | _ => none
    else none

/-- The number that a text denotes, with digits of a given kind: an optional sign, digits before
or after a point or both, and an optional exponent. -/
def read? (digit? : Char → Option Nat) (text : List Char) : Option Decimal :=
  let (negative, text) := spanSign text
  let (whole, text) := spanDigits digit? text
  let (fraction, text) :=
    match text with
    | '.' :: rest => spanDigits digit? rest
    | _ => ([], text)
  if whole.isEmpty && fraction.isEmpty then none
  else
    (readExponent? digit? text).map fun e =>
      ⟨negative, ofDigits (whole ++ fraction), e - fraction.length⟩

/-- The same number with the zeros at the end of the coefficient moved into the exponent. -/
def stripZeros (coefficient : Nat) (exponent : Int) : Nat × Int :=
  if h : coefficient ≠ 0 ∧ coefficient % 10 = 0 then
    stripZeros (coefficient / 10) (exponent + 1)
  else (coefficient, exponent)
termination_by coefficient
decreasing_by omega

/-- The digits of a number. -/
def digitsOf (n : Nat) : List Char := Nat.toDigits 10 n

/-- The decimal places above which no finite double lies. -/
def placesAbove : Int := 310

/-- The decimal places below which every number is nearer to zero than to any other double. -/
def placesBelow : Int := -330

/-- The double nearest to a decimal number. Its magnitude is settled first, so that a large
exponent costs nothing. -/
def toDouble (d : Decimal) : Double :=
  if d.coefficient = 0 then .zero d.negative
  else
    let (coefficient, exponent) := stripZeros d.coefficient d.exponent
    let places := (digitsOf coefficient).length + exponent
    if placesAbove < places then .infinite d.negative
    else if places < placesBelow then .zero d.negative
    else if 0 ≤ exponent then .ofRatio d.negative (coefficient * Nat.pow 10 exponent.toNat) 1
    else .ofRatio d.negative coefficient (Nat.pow 10 (-exponent).toNat)

example : read? Text.asciiDigit? "-12.50e3".toList = some ⟨true, 1250, 1⟩ := by decide +kernel

example : read? Text.asciiDigit? ".".toList = none ∧ read? Text.asciiDigit? "1e".toList = none := by
  decide +kernel

end Decimal

end Concerto
