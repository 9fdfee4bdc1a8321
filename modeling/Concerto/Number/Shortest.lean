import Concerto.Number.Decimal

/-!
The shortest decimal text of a double.

* `Double.shortest`: the fewest digits that read back as the double, and of these the nearest
  to it;
* `Double.text`: the text, positional from 10⁻⁴ up to 10¹⁶ and with an exponent elsewhere.
-/

namespace Concerto

namespace Double

/-- The decimal place of the first digit of a positive number of units: `p` where the number
lies in `[10 ^ (p - 1), 10 ^ p)`. -/
def leadingPlace (units : Nat) : Int :=
  if unitsPerOne ≤ units then (Decimal.digitsOf (units / unitsPerOne)).length
  else
    let d := (Decimal.digitsOf (unitsPerOne / units)).length
    if unitsPerOne ≤ units * Nat.pow 10 (d - 1) then 2 - d else 1 - d

/-- The two neighbours of a number of units on the grid of the numbers with `digits` digits, the
nearer one first; of two equally near ones the even one is first. -/
def neighbours (units digits : Nat) : List (Nat × Int) :=
  let exponent := leadingPlace units - digits
  let num := units * Nat.pow 10 (-exponent).toNat
  let den := unitsPerOne * Nat.pow 10 exponent.toNat
  let below := num / den
  let nearest := roundEven num den
  let other := if nearest = below then below + 1 else below
  [(nearest, exponent), (other, exponent)]

/-- The number of units as an exact decimal number. -/
def exactDecimal (units : Nat) : Nat × Int :=
  (units * Nat.pow 5 unitExponent, -(unitExponent : Int))

/-- The fewest decimal digits that read back as the double, with their exponent. Seventeen
digits are enough, so the exact expansion never has to stand in. -/
def shortest (negative : Bool) (units : Nat) (h : Representable units) : Decimal :=
  let readsBack := fun (c : Nat × Int) =>
    Decimal.toDouble ⟨negative, c.1, c.2⟩ == .finite negative units h
  let found := ((List.range 17).flatMap fun n => neighbours units (n + 1)).find? readsBack
  let (coefficient, exponent) := found.getD (exactDecimal units)
  let (coefficient, exponent) := Decimal.stripZeros coefficient exponent
  ⟨negative, coefficient, exponent⟩

end Double

namespace Decimal

/-- Digits with the point after the first `point` of them, and zeros where digits are missing;
there is a digit on both sides of the point. -/
def positional (digits : List Char) (point : Int) : List Char :=
  if point ≤ 0 then ['0', '.'] ++ List.replicate (-point).toNat '0' ++ digits
  else if digits.length ≤ point then
    digits ++ List.replicate (point - digits.length).toNat '0' ++ ['.', '0']
  else digits.take point.toNat ++ ['.'] ++ digits.drop point.toNat

/-- Digits with a point after the first, and an exponent with a sign and two digits or more. -/
def scientific (digits : List Char) (exponent : Int) : List Char :=
  let fraction := digits.drop 1
  let power := digitsOf exponent.natAbs
  digits.take 1 ++ (if fraction.isEmpty then [] else '.' :: fraction) ++ ['e'] ++
    [if exponent < 0 then '-' else '+'] ++ List.replicate (2 - power.length) '0' ++ power

/-- The text of a decimal number: positional where the first digit has a place from the fourth
after the point to the sixteenth before it, with an exponent elsewhere. -/
def text (d : Decimal) : List Char :=
  let digits := digitsOf d.coefficient
  let point := d.exponent + digits.length
  let sign := if d.negative then ['-'] else []
  sign ++ (if -4 < point ∧ point ≤ 16 then positional digits point
    else scientific digits (point - 1))

end Decimal

namespace Double

/-- The text of a finite double; zero keeps its sign. -/
def finiteText (negative : Bool) (units : Nat) (h : Representable units) : List Char :=
  if units = 0 then Decimal.text ⟨negative, 0, 0⟩
  else (shortest negative units h).text

/-- The text of a double, `nan` and `inf` for those that are not finite. -/
def text : Double → String
  | .nan => "nan"
  | .infinite negative => if negative then "-inf" else "inf"
  | .finite negative units h => String.ofList (finiteText negative units h)

end Double

end Concerto
