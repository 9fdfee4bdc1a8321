/-!
Double-precision numbers, without machine arithmetic. Every finite double is a whole multiple
of 2⁻¹⁰⁷⁴, the least positive one, so a finite double is a sign and a number of such units, of
which at most 53 leading bits are used.

* `Double`: not a number, the infinities, and the finite doubles;
* `ofRatio`: the double nearest to a fraction, ties to the even neighbour;
* `ofRatio_units`: rounding leaves a representable number of units as it is;
* `toInt?`: the whole number that a double is.
-/

namespace Concerto

namespace Double

/-- The binary places below one: a unit is `2 ^ (-1074)`. -/
def unitExponent : Nat := 1074

/-- The units in one. -/
def unitsPerOne : Nat := Nat.pow 2 unitExponent

/-- The binary places of the units in the largest finite double. -/
def limitExponent : Nat := 2098

/-- The first number of units that is too large for a finite double. -/
def unitsLimit : Nat := Nat.pow 2 limitExponent

/-- The spacing of the doubles with as many binary places as `units`: 53 significant bits. -/
def spacing (units : Nat) : Nat := Nat.pow 2 (units.log2 - 52)

/-- A number of units that a finite double can hold. -/
def Representable (units : Nat) : Prop := units % spacing units = 0 ∧ units < unitsLimit

instance (units : Nat) : Decidable (Representable units) := by
  unfold Representable; infer_instance

theorem two_pow_pos (n : Nat) : 0 < Nat.pow 2 n := Nat.two_pow_pos n

theorem unitsPerOne_pos : 0 < unitsPerOne := by
  unfold unitsPerOne; exact two_pow_pos unitExponent

theorem unitsLimit_pos : 0 < unitsLimit := by
  unfold unitsLimit; exact two_pow_pos limitExponent

theorem spacing_pos (units : Nat) : 0 < spacing units := two_pow_pos (units.log2 - 52)

theorem representable_zero : Representable 0 := ⟨Nat.zero_mod _, unitsLimit_pos⟩

end Double

/-- A double-precision number. Zero has two signs, and so has infinity. -/
inductive Double where
  | nan
  | infinite (negative : Bool)
  | finite (negative : Bool) (units : Nat) (representable : Double.Representable units)
  deriving DecidableEq

namespace Double

/-- Zero of either sign. -/
def zero (negative : Bool) : Double := .finite negative 0 representable_zero

instance : Inhabited Double := ⟨zero false⟩

/-- The double of a number of units, infinite where no finite double holds them. -/
def ofUnits (negative : Bool) (units : Nat) : Double :=
  if h : Representable units then .finite negative units h else .infinite negative

/-- The whole number nearest to a fraction; of two equally near ones the even one. -/
def roundEven (num den : Nat) : Nat :=
  let quotient := num / den
  let twice := 2 * (num % den)
  if twice < den then quotient
  else if den < twice then quotient + 1
  else if quotient % 2 = 0 then quotient
  else quotient + 1

/-- The double nearest to the fraction `num / den`, with the even one of two equally near. The
spacing of the result is that of the doubles just below the fraction. -/
def ofRatio (negative : Bool) (num den : Nat) : Double :=
  let scaled := num * unitsPerOne
  let step := spacing (scaled / den)
  ofUnits negative (roundEven scaled (den * step) * step)

/-- The double nearest to a whole number. -/
def ofInt (i : Int) : Double := ofRatio (i < 0) i.natAbs 1

/-- The whole number that a double is, if it is one. -/
def toInt? : Double → Option Int
  | .finite negative units _ =>
    if units % unitsPerOne = 0 then
      some (if negative then -(units / unitsPerOne : Nat) else (units / unitsPerOne : Nat))
    else none
  | _ => none

/-- The double is neither infinite nor not a number. -/
def isFinite : Double → Bool
  | .finite .. => true
  | _ => false

theorem roundEven_mul {q den : Nat} (h : 0 < den) : roundEven (q * den) den = q := by
  simp [roundEven, Nat.mul_div_cancel _ h, h]

/-- A representable number of units is the nearest double to itself. -/
theorem ofRatio_units (negative : Bool) {units : Nat} (h : Representable units) :
    ofRatio negative units unitsPerOne = .finite negative units h := by
  have hunits : units / spacing units * spacing units = units :=
    Nat.div_mul_cancel (Nat.dvd_of_mod_eq_zero h.1)
  have hscaled : units * unitsPerOne
      = units / spacing units * (unitsPerOne * spacing units) := by
    rw [Nat.mul_comm unitsPerOne, ← Nat.mul_assoc, hunits]
  simp only [ofRatio, Nat.mul_div_cancel _ unitsPerOne_pos]
  rw [hscaled, roundEven_mul (Nat.mul_pos unitsPerOne_pos (spacing_pos units)), hunits]
  simp [ofUnits, h]

example : ofRatio false 1 2 = ofUnits false (2 ^ 1073) := by decide +kernel

example : ofInt (2 ^ 53 + 1) = ofInt (2 ^ 53) ∧ ofInt (2 ^ 1024) = .infinite false := by
  decide +kernel

end Double

end Concerto
