import Concerto.Number.Shortest
import Mathlib.Tactic.Ring

/-!
Rounding of fractions and of decimal numbers.

* `Double.ofRatio_eq_ofRatio`: equal fractions have the same nearest double;
* `Decimal.stripZeros_mul`: zeros at the end of a coefficient may be moved into the exponent;
* `Decimal.toDouble_exactDecimal`: the exact decimal expansion of a double denotes the double;
* `Double.toDouble_shortest`: so do the digits that are written for it.
-/

namespace Concerto

/-! ### Fractions -/

namespace Double

/-- A factor that numerator and denominator share changes nothing. -/
lemma roundEven_mul_left {k : ℕ} (hk : 0 < k) (num den : ℕ) :
    roundEven (k * num) (k * den) = roundEven num den := by
  have hmod : 2 * (k * num % (k * den)) = k * (2 * (num % den)) := by
    rw [Nat.mul_mod_mul_left]
    ring
  simp only [roundEven, Nat.mul_div_mul_left _ _ hk, hmod, Nat.mul_lt_mul_left hk]

/-- Equal fractions have the same nearest whole number. -/
lemma roundEven_eq_roundEven {num den num' den' : ℕ} (hd : 0 < den) (hd' : 0 < den')
    (h : num * den' = num' * den) : roundEven num den = roundEven num' den' := by
  rw [← roundEven_mul_left hd' num den, ← roundEven_mul_left hd num' den', Nat.mul_comm den' num, h,
    Nat.mul_comm num' den, Nat.mul_comm den' den]

/-- Equal fractions have the same nearest double. -/
lemma ofRatio_eq_ofRatio (negative : Bool) {num den num' den' : ℕ} (hd : 0 < den) (hd' : 0 < den')
    (h : num * den' = num' * den) : ofRatio negative num den = ofRatio negative num' den' := by
  have hscaled : num * unitsPerOne * den' = num' * unitsPerOne * den := by
    rw [Nat.mul_right_comm, h, Nat.mul_right_comm]
  have hdiv : num * unitsPerOne / den = num' * unitsPerOne / den' := by
    rw [← Nat.mul_div_mul_right _ _ hd', hscaled, Nat.mul_comm den den', Nat.mul_div_mul_right _ _ hd]
  simp only [ofRatio, hdiv]
  have hstep := spacing_pos (num' * unitsPerOne / den')
  rw [roundEven_eq_roundEven (Nat.mul_pos hd hstep) (Nat.mul_pos hd' hstep)]
  rw [← Nat.mul_assoc, hscaled]
  ring

end Double

/-! ### Decimal numbers -/

namespace Decimal

open Double

/-- Stripping zeros does not change the number: a power of ten is moved. -/
lemma stripZeros_spec (coefficient : ℕ) (exponent : ℤ) :
    ∃ k : ℕ, coefficient = (stripZeros coefficient exponent).1 * 10 ^ k ∧
      (stripZeros coefficient exponent).2 = exponent + k := by
  fun_induction stripZeros coefficient exponent with
  | case1 coefficient exponent h ih =>
      obtain ⟨k, hc, he⟩ := ih
      refine ⟨k + 1, ?_, by rw [he]; push_cast; ring⟩
      have hten : coefficient = coefficient / 10 * 10 := (Nat.div_mul_cancel (Nat.dvd_of_mod_eq_zero h.2)).symm
      rw [pow_succ, ← Nat.mul_assoc, ← hc]
      exact hten
  | case2 => exact ⟨0, by simp, by simp⟩

/-- Zeros at the end of a coefficient may be moved into the exponent. -/
lemma stripZeros_mul {coefficient : ℕ} (h : coefficient ≠ 0) (exponent : ℤ) (k : ℕ) :
    stripZeros (coefficient * 10 ^ k) exponent = stripZeros coefficient (exponent + k) := by
  induction k generalizing exponent with
  | zero => simp
  | succ k ih =>
      have hne : coefficient * 10 ^ (k + 1) ≠ 0 := mul_ne_zero h (pow_ne_zero _ (by omega))
      have hmod : coefficient * 10 ^ (k + 1) % 10 = 0 := by
        rw [pow_succ, ← Nat.mul_assoc, Nat.mul_mod_left]
      have hdiv : coefficient * 10 ^ (k + 1) / 10 = coefficient * 10 ^ k := by
        rw [pow_succ, ← Nat.mul_assoc, Nat.mul_div_cancel _ (by omega)]
      rw [stripZeros, dif_pos ⟨hne, hmod⟩, hdiv, ih]
      congr 1
      push_cast
      ring

/-- Zeros at the end of a coefficient do not change the double. -/
lemma toDouble_mul (negative : Bool) {coefficient : ℕ} (h : coefficient ≠ 0) (exponent : ℤ) (k : ℕ) :
    toDouble ⟨negative, coefficient * 10 ^ k, exponent⟩ =
      toDouble ⟨negative, coefficient, exponent + k⟩ := by
  have hne : coefficient * 10 ^ k ≠ 0 := mul_ne_zero h (pow_ne_zero _ (by omega))
  simp only [toDouble, stripZeros_mul h, hne, h]

/-- Stripping zeros does not change the double. -/
lemma toDouble_stripZeros (negative : Bool) {coefficient : ℕ} (h : coefficient ≠ 0) (exponent : ℤ) :
    toDouble ⟨negative, (stripZeros coefficient exponent).1, (stripZeros coefficient exponent).2⟩ =
      toDouble ⟨negative, coefficient, exponent⟩ := by
  obtain ⟨k, hc, he⟩ := stripZeros_spec coefficient exponent
  have hne : (stripZeros coefficient exponent).1 ≠ 0 := by
    intro h0
    rw [h0, Nat.zero_mul] at hc
    exact h hc
  conv_rhs => rw [hc]
  rw [toDouble_mul negative hne, he]

/-- A number has as many digits as its magnitude asks for. -/
lemma pow_le_of_length_digitsOf {n : ℕ} (h : n ≠ 0) : 10 ^ ((digitsOf n).length - 1) ≤ n := by
  by_contra hlt
  by_cases hone : (digitsOf n).length - 1 = 0
  · rw [hone] at hlt
    omega
  · have := (Nat.length_toDigits_le_iff (b := 10) (by omega) (by omega)).mpr (not_le.mp hlt)
    rw [digitsOf] at hone this
    omega

lemma lt_pow_length_digitsOf (n : ℕ) : n < 10 ^ (digitsOf n).length :=
  (Nat.length_toDigits_le_iff (by omega) Nat.length_toDigits_pos).mp le_rfl

/-- The decimal places of a number, the stripped zeros included, lie below those of any power of
ten above it. -/
lemma length_add_le_of_lt {coefficient k a : ℕ} (hne : coefficient ≠ 0)
    (h : coefficient * 10 ^ k < 10 ^ a) : (digitsOf coefficient).length + k ≤ a := by
  have hle : 10 ^ ((digitsOf coefficient).length - 1 + k) ≤ coefficient * 10 ^ k := by
    rw [pow_add]
    exact Nat.mul_le_mul_right _ (pow_le_of_length_digitsOf hne)
  have hlt := (Nat.pow_lt_pow_iff_right (a := 10) (by omega)).mp (lt_of_le_of_lt hle h)
  omega

/-- They lie above those of any power of ten below it. -/
lemma lt_length_add_of_le {coefficient k b : ℕ} (h : 10 ^ b ≤ coefficient * 10 ^ k) :
    b < (digitsOf coefficient).length + k := by
  have hlt : coefficient * 10 ^ k < 10 ^ ((digitsOf coefficient).length + k) := by
    rw [pow_add]
    exact Nat.mul_lt_mul_of_pos_right (lt_pow_length_digitsOf coefficient) (pow_pos (by omega) _)
  exact (Nat.pow_lt_pow_iff_right (by omega)).mp (lt_of_le_of_lt h hlt)

/-- A number of units, written with the factor that makes units a power of ten, denotes the
double with these units. -/
lemma toDouble_units_mul (negative : Bool) {units : ℕ} (h : Representable units) (hne : units ≠ 0)
    {factor e : ℕ} (hfactor : factor * unitsPerOne = 10 ^ e)
    (hlow : 10 ^ (e - 330) ≤ factor) (hhigh : unitsLimit * factor ≤ 10 ^ (e + 310)) :
    toDouble ⟨negative, units * factor, -(e : ℤ)⟩ = .finite negative units h := by
  have hpos : 0 < factor := lt_of_lt_of_le (pow_pos (by omega) _) hlow
  have hne' : units * factor ≠ 0 := mul_ne_zero hne (by omega)
  obtain ⟨k, hc, he⟩ := stripZeros_spec (units * factor) (-(e : ℤ))
  simp only [toDouble, if_neg hne']
  generalize stripZeros (units * factor) (-(e : ℤ)) = stripped at hc he
  obtain ⟨c, exponent⟩ := stripped
  simp only at hc he ⊢
  have hc0 : c ≠ 0 := by
    rintro rfl
    rw [Nat.zero_mul] at hc
    exact hne' hc
  -- the decimal places lie between those where zero ends and infinity begins
  have habove : (digitsOf c).length + k ≤ e + 310 := by
    refine length_add_le_of_lt hc0 ?_
    rw [← hc]
    exact lt_of_lt_of_le (Nat.mul_lt_mul_of_pos_right h.2 hpos) hhigh
  have hbelow : e - 330 < (digitsOf c).length + k := by
    refine lt_length_add_of_le ?_
    rw [← hc]
    exact le_trans hlow (Nat.le_mul_of_pos_left factor (Nat.pos_of_ne_zero hne))
  have hunits : c * 10 ^ k * unitsPerOne = units * 10 ^ e := by
    rw [← hc, Nat.mul_assoc, hfactor]
  rw [if_neg (by simp only [placesAbove]; omega), if_neg (by simp only [placesBelow]; omega),
    ← ofRatio_units negative h]
  -- the exponent left over is multiplied in or divided by, as its sign tells
  split
  · next hnonneg =>
      refine ofRatio_eq_ofRatio negative one_pos unitsPerOne_pos ?_
      obtain ⟨j, rfl⟩ : ∃ j, k = e + j := ⟨k - e, by omega⟩
      have hpow : exponent.toNat = j := by omega
      rw [hpow, Nat.pow_eq]
      apply Nat.eq_of_mul_eq_mul_right (pow_pos (by omega : 0 < 10) e)
      rw [Nat.mul_one, ← hunits, pow_add]
      ring
  · next hneg =>
      refine ofRatio_eq_ofRatio negative (pow_pos (by omega) _) unitsPerOne_pos ?_
      obtain ⟨j, rfl⟩ : ∃ j, e = k + j := ⟨e - k, by omega⟩
      have hpow : (-exponent).toNat = j := by omega
      rw [hpow, Nat.pow_eq]
      apply Nat.eq_of_mul_eq_mul_right (pow_pos (by omega : 0 < 10) k)
      rw [Nat.mul_right_comm, hunits, pow_add]
      ring

/-- A power of five makes a unit a power of ten. -/
lemma five_pow_mul_two_pow (e : ℕ) : Nat.pow 5 e * Nat.pow 2 e = 10 ^ e :=
  (Nat.mul_pow 5 2 e).symm

lemma five_pow_mul_unitsPerOne : Nat.pow 5 unitExponent * unitsPerOne = 10 ^ unitExponent := by
  unfold unitsPerOne
  exact five_pow_mul_two_pow unitExponent

lemma pow_le_five_pow : 10 ^ (unitExponent - 330) ≤ Nat.pow 5 unitExponent := by decide +kernel

lemma unitsLimit_mul_le : unitsLimit * Nat.pow 5 unitExponent ≤ 10 ^ (unitExponent + 310) := by
  decide +kernel

/-- The exact decimal expansion of a double denotes the double. -/
theorem toDouble_exactDecimal (negative : Bool) {units : ℕ} (h : Representable units)
    (hne : units ≠ 0) :
    toDouble ⟨negative, (exactDecimal units).1, (exactDecimal units).2⟩ =
      .finite negative units h := by
  rw [exactDecimal]
  exact toDouble_units_mul negative h hne five_pow_mul_unitsPerOne pow_le_five_pow unitsLimit_mul_le

/-- The digits that are written for a double denote it. -/
theorem toDouble_shortest (negative : Bool) {units : ℕ} (h : Representable units)
    (hne : units ≠ 0) :
    toDouble (shortest negative units h) = .finite negative units h := by
  have key : ∀ c : ℕ × ℤ, toDouble ⟨negative, c.1, c.2⟩ = .finite negative units h →
      toDouble ⟨negative, (stripZeros c.1 c.2).1, (stripZeros c.1 c.2).2⟩ =
        .finite negative units h := by
    intro c hc
    by_cases h0 : c.1 = 0
    · rw [h0] at hc
      simp only [toDouble, if_true, zero, Double.finite.injEq] at hc
      exact absurd hc.2.symm hne
    · rw [toDouble_stripZeros negative h0, hc]
  have hexact := toDouble_exactDecimal negative h hne
  simp only [shortest]
  -- the expansion is kept closed: it has a thousand digits
  generalize exactDecimal units = expansion at hexact ⊢
  generalize hfound : List.find? _ _ = found
  cases found with
  | none =>
      rw [Option.getD_none]
      exact key expansion hexact
  | some c =>
      have hc := List.find?_some hfound
      rw [beq_iff_eq] at hc
      exact key c hc

end Decimal

end Concerto
