import Concerto.Model.Print
import Concerto.Number.Literal
import Concerto.Proofs.Number.Rounding
import Concerto.Proofs.Text.LineFeeds

/-!
The text of a number and what it reads back as.

* `NumberText`: a sign, digits, digits after a point, and a power of ten;
* `NumberText.read?_chars`: what such a text denotes;
* `Decimal.exists_numberText`: the text of a decimal number is one, with the same double;
* `Double.readDouble_text`: the text of a finite double reads back as the double;
* `readInteger_integerText`: the text of a whole number reads back as the number.
-/

namespace Concerto

/-! ### Digits -/

/-- The value of the digits `0` to `9`. -/
def digitsValue (cs : List Char) : ℕ := Nat.ofDigitChars 10 cs 0

/-- All characters are among the digits `0` to `9`. -/
def AreDigits (cs : List Char) : Prop := ∀ c ∈ cs, c.isDigit = true

lemma toNat_of_isDigit {c : Char} (h : c.isDigit = true) : 48 ≤ c.toNat ∧ c.toNat ≤ 57 := by
  simp only [Char.isDigit, Bool.and_eq_true, decide_eq_true_eq] at h
  exact h

/-- The digits `0` to `9` are decimal digits. -/
lemma decimalDigit?_of_isDigit {c : Char} (h : c.isDigit = true) :
    Text.decimalDigit? c = some (c.toNat - 48) := by
  obtain ⟨hlow, hhigh⟩ := toNat_of_isDigit h
  rw [Text.decimalDigit?, Text.decimalZeros, List.find?_cons_of_pos (by simp; omega)]
  rfl

/-- The digits of a number are among the digits `0` to `9`. -/
lemma areDigits_digitsOf (n : ℕ) : AreDigits (Decimal.digitsOf n) := by
  intro c hc
  exact Nat.isDigit_of_mem_toDigits (by omega) (by omega) hc

lemma areDigits_replicate (n : ℕ) : AreDigits (List.replicate n '0') := by
  intro c hc
  rw [List.eq_of_mem_replicate hc]
  decide

lemma AreDigits.append {cs ds : List Char} (hc : AreDigits cs) (hd : AreDigits ds) :
    AreDigits (cs ++ ds) := by
  intro c h
  rcases List.mem_append.mp h with h | h
  · exact hc c h
  · exact hd c h

lemma AreDigits.take {cs : List Char} (h : AreDigits cs) (n : ℕ) : AreDigits (cs.take n) :=
  fun c hc => h c (List.mem_of_mem_take hc)

lemma AreDigits.drop {cs : List Char} (h : AreDigits cs) (n : ℕ) : AreDigits (cs.drop n) :=
  fun c hc => h c (List.mem_of_mem_drop hc)

lemma AreDigits.noReturn {cs : List Char} (h : AreDigits cs) : NoReturn cs := by
  rintro c hc rfl
  exact absurd (h '\r' hc) (by decide)

@[simp] lemma digitsValue_digitsOf (n : ℕ) : digitsValue (Decimal.digitsOf n) = n :=
  Nat.ofDigitChars_ten_toDigits

/-- Zeros in front count nothing. -/
lemma digitsValue_zeros_append (n : ℕ) (cs : List Char) :
    digitsValue (List.replicate n '0' ++ cs) = digitsValue cs := by
  rw [digitsValue, Nat.ofDigitChars_append, Nat.ofDigitChars_replicate_zero, Nat.mul_zero]
  rfl

/-- A zero at the end makes the number ten times as large. -/
lemma digitsValue_append_zeros (cs : List Char) (n : ℕ) :
    digitsValue (cs ++ List.replicate n '0') = digitsValue cs * 10 ^ n := by
  rw [digitsValue, Nat.ofDigitChars_append, Nat.ofDigitChars_replicate_zero, Nat.mul_comm]
  rfl

/-- They are so too where no other digits count. -/
lemma asciiDigit?_of_isDigit {c : Char} (h : c.isDigit = true) :
    Text.asciiDigit? c = some (c.toNat - 48) := by
  simp only [Char.isDigit, Bool.and_eq_true, decide_eq_true_eq] at h
  exact if_pos h

/-- Digits up to a character that is none are read with their values, whichever digits count. -/
lemma spanDigits_append_of {digit? : Char → Option ℕ}
    (hdigit : ∀ c : Char, c.isDigit = true → digit? c = some (c.toNat - 48)) {cs : List Char}
    (hcs : AreDigits cs) (rest : List Char) (hrest : ∀ c ∈ rest.head?, digit? c = none) :
    spanDigits digit? (cs ++ rest) = (cs.map fun c => c.toNat - 48, rest) := by
  induction cs with
  | nil =>
      cases rest with
      | nil => rfl
      | cons c rest => simp [spanDigits, hrest c (by simp)]
  | cons c cs ih =>
      have hc := hdigit c (hcs c (by simp))
      have hih := ih fun d hd => hcs d (by simp [hd])
      simp [spanDigits, hc, hih]

/-- Decimal digits up to a character that is none are read with their values. -/
lemma spanDigits_append {cs : List Char} (hcs : AreDigits cs) (rest : List Char)
    (hrest : ∀ c ∈ rest.head?, Text.decimalDigit? c = none) :
    spanDigits Text.decimalDigit? (cs ++ rest) = (cs.map fun c => c.toNat - 48, rest) :=
  spanDigits_append_of (fun _ => decimalDigit?_of_isDigit) hcs rest hrest

/-- The number that these values denote. -/
lemma ofDigits_map (cs : List Char) : ofDigits (cs.map fun c => c.toNat - 48) = digitsValue cs := by
  rw [ofDigits, List.foldl_map]
  rfl

/-- A number with `n` digits is below `10 ^ n`. -/
lemma ofDigits_lt {digits : List ℕ} (h : ∀ d ∈ digits, d < 10) :
    ofDigits digits < 10 ^ digits.length := by
  -- for the induction, the digits are put after a number that is there already
  have key : ∀ (ds : List ℕ) (n : ℕ), (∀ d ∈ ds, d < 10) →
      ds.foldl (fun n d => 10 * n + d) n < (n + 1) * 10 ^ ds.length := by
    intro ds
    induction ds with
    | nil => simp
    | cons d ds ih =>
        intro n hds
        have hd := hds d (by simp)
        have hle : 10 * n + d + 1 ≤ (n + 1) * 10 := by omega
        calc (d :: ds).foldl (fun n d => 10 * n + d) n
            < (10 * n + d + 1) * 10 ^ ds.length := ih _ fun e he => hds e (by simp [he])
          _ ≤ (n + 1) * 10 * 10 ^ ds.length := Nat.mul_le_mul_right _ hle
          _ = (n + 1) * 10 ^ (d :: ds).length := by rw [List.length_cons, pow_succ]; ring
  have := key digits 0 h
  rwa [Nat.zero_add, Nat.one_mul] at this

/-! ### Parts of a number -/

/-- A number as it is written: a sign, digits, digits after a point if there are any, and a power
of ten with a sign of its own. -/
structure NumberText where
  negative : Bool
  whole : List Char
  fraction : List Char
  power : Option (Bool × List Char)
  whole_ne_nil : whole ≠ []
  whole_digits : AreDigits whole
  fraction_digits : AreDigits fraction
  power_digits : ∀ p ∈ power, p.2 ≠ [] ∧ AreDigits p.2

namespace NumberText

/-- The sign. -/
def signChars (t : NumberText) : List Char := if t.negative then ['-'] else []

/-- The point with the digits after it. -/
def pointChars (t : NumberText) : List Char :=
  if t.fraction = [] then [] else '.' :: t.fraction

/-- The power of ten. -/
def powerChars (t : NumberText) : List Char :=
  match t.power with
  | none => []
  | some (negative, digits) => 'e' :: (if negative then '-' else '+') :: digits

/-- The text without its sign. -/
def unsignedChars (t : NumberText) : List Char := t.whole ++ t.pointChars ++ t.powerChars

/-- The text. -/
def chars (t : NumberText) : List Char := t.signChars ++ t.unsignedChars

/-- No zero could be left out in front. -/
def IsTrim (t : NumberText) : Prop := t.whole.head? = some '0' → t.whole = ['0']

/-- The exponent that the power of ten denotes. -/
def exponent (t : NumberText) : ℤ :=
  match t.power with
  | none => 0
  | some (negative, digits) => if negative then -(digitsValue digits : ℤ) else digitsValue digits

/-- The number that the text denotes. -/
def value (t : NumberText) : Decimal :=
  ⟨t.negative, digitsValue (t.whole ++ t.fraction), t.exponent - t.fraction.length⟩

/-- A whole number. -/
def ofInt (i : ℤ) : NumberText where
  negative := i < 0
  whole := Decimal.digitsOf i.natAbs
  fraction := []
  power := none
  whole_ne_nil := Nat.toDigits_ne_nil
  whole_digits := areDigits_digitsOf _
  fraction_digits := by intro c hc; simp at hc
  power_digits := by simp

variable (t : NumberText)

/-- A number begins with a digit after its sign. -/
lemma exists_whole : ∃ c cs, t.whole = c :: cs ∧ c.isDigit = true := by
  obtain ⟨c, cs, h⟩ := List.exists_cons_of_ne_nil t.whole_ne_nil
  exact ⟨c, cs, h, t.whole_digits c (by simp [h])⟩

/-- The sign is read. -/
lemma spanSign_chars : spanSign t.chars = (t.negative, t.unsignedChars) := by
  cases hneg : t.negative with
  | true => simp [chars, signChars, hneg, spanSign]
  | false =>
      obtain ⟨c, cs, hc, hdigit⟩ := t.exists_whole
      obtain ⟨hlow, hhigh⟩ := toNat_of_isDigit hdigit
      simp only [chars, signChars, hneg, unsignedChars, hc, List.cons_append]
      simp only [spanSign]
      split <;> simp_all

/-- The power of ten is read. -/
lemma readExponent?_powerChars :
    Decimal.readExponent? Text.decimalDigit? t.powerChars = some t.exponent := by
  cases hpower : t.power with
  | none => simp [powerChars, exponent, hpower, Decimal.readExponent?]
  | some p =>
      obtain ⟨negative, digits⟩ := p
      obtain ⟨hne, hdigits⟩ := t.power_digits _ hpower
      obtain ⟨d, ds, rfl⟩ := List.exists_cons_of_ne_nil hne
      have hspan := spanDigits_append hdigits [] (by simp)
      have hvalue := ofDigits_map (d :: ds)
      rw [List.append_nil] at hspan
      rw [List.map_cons] at hspan hvalue
      cases negative <;>
        simp [powerChars, exponent, hpower, Decimal.readExponent?, spanSign, hspan, hvalue]

/-- Neither the point nor the power of ten begins with a digit. -/
lemma head?_powerChars : ∀ c ∈ t.powerChars.head?, c = 'e' := by
  intro c hc
  rw [powerChars] at hc
  split at hc
  · simp at hc
  · exact (Option.some.inj hc).symm

/-- What such a text denotes. -/
theorem read?_chars : Decimal.read? Text.decimalDigit? t.chars = some t.value := by
  have hpower : ∀ c ∈ t.powerChars.head?, Text.decimalDigit? c = none := by
    intro c hc
    rw [t.head?_powerChars c hc]
    decide
  have hwhole : t.whole.isEmpty = false := by simp [t.whole_ne_nil]
  simp only [Decimal.read?, t.spanSign_chars, unsignedChars, pointChars]
  -- without a fraction the point is left out
  by_cases hfraction : t.fraction = []
  · rw [if_pos hfraction, List.append_nil, spanDigits_append t.whole_digits _ hpower]
    simp only [value, hfraction]
    split
    · next rest hrest =>
        have := t.head?_powerChars '.' (by simp [hrest])
        contradiction
    · simp [t.readExponent?_powerChars, t.whole_ne_nil, ← ofDigits_map]
  · rw [if_neg hfraction, List.append_assoc, List.cons_append,
      spanDigits_append t.whole_digits _ (by simp; decide)]
    simp [spanDigits_append t.fraction_digits _ hpower, t.readExponent?_powerChars, t.whole_ne_nil,
      ← ofDigits_map, value]

/-- No character of a number is a carriage return. -/
lemma noReturn_chars (t : NumberText) : NoReturn t.chars := by
  have hpoint : NoReturn t.pointChars := by
    rw [pointChars]
    split
    · exact noReturn_nil
    · exact noReturn_cons.mpr ⟨by decide, AreDigits.noReturn t.fraction_digits⟩
  have hpower : NoReturn t.powerChars := by
    rw [powerChars]
    split
    · exact noReturn_nil
    · next negative digits hp =>
        refine noReturn_cons.mpr ⟨by decide, noReturn_cons.mpr ⟨?_, ?_⟩⟩
        · split <;> decide
        · exact AreDigits.noReturn (t.power_digits _ hp).2
  have hsign : NoReturn t.signChars := by
    rw [signChars]
    split <;> simp [NoReturn]
  exact noReturn_append.mpr ⟨hsign, noReturn_append.mpr
    ⟨noReturn_append.mpr ⟨AreDigits.noReturn t.whole_digits, hpoint⟩, hpower⟩⟩

end NumberText

/-! ### The text of a decimal number -/

namespace Decimal

/-- A number written with zeros at the end of its coefficient is the same double. -/
lemma toDouble_of_mul (d : Decimal) {value : Decimal} (k : ℕ)
    (hnegative : value.negative = d.negative) (hcoefficient : value.coefficient = d.coefficient * 10 ^ k)
    (hexponent : value.exponent = d.exponent - k) : value.toDouble = d.toDouble := by
  obtain ⟨negative, coefficient, exponent⟩ := d
  obtain ⟨_, _, _⟩ := value
  simp only at hnegative hcoefficient hexponent
  subst hnegative hcoefficient hexponent
  by_cases h : coefficient = 0
  · simp [toDouble, h]
  · rw [toDouble_mul _ h]
    congr 2
    omega

lemma digitsOf_ne_nil (n : ℕ) : digitsOf n ≠ [] := Nat.toDigits_ne_nil

/-- The digits of a number begin with a zero only if the number is zero. -/
lemma digitsOf_eq_zero {n : ℕ} (h : (digitsOf n).head? = some '0') : n = 0 := by
  obtain ⟨cs, hcs⟩ := List.head?_eq_some_iff.mp h
  have hvalue : n = digitsValue cs := by
    rw [← digitsValue_digitsOf n, hcs]
    exact digitsValue_zeros_append 1 cs
  by_cases hnil : cs = []
  · rw [hvalue, hnil]
    rfl
  · have hdigits : AreDigits cs := fun c hc =>
      areDigits_digitsOf n c (by rw [hcs]; exact List.mem_cons_of_mem _ hc)
    -- without its first digit the number has too few of them
    have hlt : n < 10 ^ cs.length := by
      have hvalues : ∀ d ∈ cs.map (fun c => c.toNat - 48), d < 10 := by
        rw [List.forall_mem_map]
        intro c hc
        have hc := toNat_of_isDigit (hdigits c hc)
        omega
      have hlt := ofDigits_lt hvalues
      rwa [ofDigits_map, List.length_map, ← hvalue] at hlt
    have hlength := (Nat.length_toDigits_le_iff (b := 10) (by omega)
      (List.length_pos_iff.mpr hnil)).mpr hlt
    rw [← digitsOf, hcs, List.length_cons] at hlength
    omega

/-- A text without sign is that of a number with a point or a power of ten, which denotes the
same double as `d`, and has no superfluous zeros in front unless `d` has some at its end. -/
def WrittenAs (d : Decimal) (unsigned : List Char) : Prop :=
  ∃ t : NumberText, t.negative = d.negative ∧ t.unsignedChars = unsigned ∧
    (t.fraction ≠ [] ∨ t.power.isSome) ∧ t.value.toDouble = d.toDouble ∧
    ((d.coefficient = 0 → d.exponent = 0) → t.IsTrim)

/-- Digits with a point between them. -/
lemma writtenAs_point (d : Decimal) (whole fraction : List Char) (k : ℕ) (hwhole : whole ≠ [])
    (hfraction : fraction ≠ []) (hwholeDigits : AreDigits whole)
    (hfractionDigits : AreDigits fraction)
    (hcoefficient : digitsValue (whole ++ fraction) = d.coefficient * 10 ^ k)
    (hexponent : -(fraction.length : ℤ) = d.exponent - k)
    (htrim : (d.coefficient = 0 → d.exponent = 0) → whole.head? = some '0' → whole = ['0']) :
    d.WrittenAs (whole ++ '.' :: fraction) := by
  let t : NumberText := ⟨d.negative, whole, fraction, none, hwhole, hwholeDigits, hfractionDigits, by simp⟩
  refine ⟨t, rfl, ?_, Or.inl hfraction, toDouble_of_mul d k rfl hcoefficient ?_, htrim⟩
  · simp [t, NumberText.unsignedChars, NumberText.pointChars, NumberText.powerChars, hfraction]
  · simp only [t, NumberText.value, NumberText.exponent]
    omega

/-- A number below one: zeros may stand between the point and the digits. -/
lemma writtenAs_fraction (d : Decimal) {k : ℕ}
    (hpoint : d.exponent + (digitsOf d.coefficient).length = -k) :
    d.WrittenAs ('0' :: '.' :: (List.replicate k '0' ++ digitsOf d.coefficient)) := by
  have hzeros : digitsValue (['0'] ++ (List.replicate k '0' ++ digitsOf d.coefficient)) =
      d.coefficient * 10 ^ 0 := by
    have hvalue := digitsValue_zeros_append (k + 1) (digitsOf d.coefficient)
    rw [List.replicate_succ, digitsValue_digitsOf] at hvalue
    rw [Nat.pow_zero, Nat.mul_one]
    exact hvalue
  refine writtenAs_point d ['0'] _ 0 (by simp) (by simp [digitsOf_ne_nil]) (areDigits_replicate 1)
    ((areDigits_replicate k).append (areDigits_digitsOf _)) hzeros ?_ fun _ _ => rfl
  simp only [List.length_append, List.length_replicate]
  omega

/-- A whole number: zeros may stand between the digits and the point. -/
lemma writtenAs_whole (d : Decimal) {k : ℕ} (hexponent : d.exponent = k) :
    d.WrittenAs (digitsOf d.coefficient ++ List.replicate k '0' ++ '.' :: ['0']) := by
  have hzeros : digitsValue (digitsOf d.coefficient ++ List.replicate k '0' ++ ['0']) =
      d.coefficient * 10 ^ (k + 1) := by
    have hvalue := digitsValue_append_zeros (digitsOf d.coefficient) (k + 1)
    rwa [List.replicate_succ', ← List.append_assoc, digitsValue_digitsOf] at hvalue
  refine writtenAs_point d _ ['0'] _ (by simp [digitsOf_ne_nil]) (by simp)
    ((areDigits_digitsOf _).append (areDigits_replicate k)) (areDigits_replicate 1) hzeros ?_ ?_
  · simp only [List.length_singleton]
    omega
  -- no zeros come after a zero, as its exponent is zero
  · intro htrim hhead
    rw [List.head?_append, Option.or_of_isSome (by simpa using digitsOf_ne_nil _)] at hhead
    have hcoefficient := digitsOf_eq_zero hhead
    have hplaces : k = 0 := by
      have := htrim hcoefficient
      omega
    rw [hplaces, hcoefficient]
    rfl

/-- The point stands after some digits and before others. -/
lemma writtenAs_split (d : Decimal) {k : ℕ} (hpos : 0 < k) (hlt : k < (digitsOf d.coefficient).length)
    (hpoint : d.exponent + (digitsOf d.coefficient).length = k) :
    d.WrittenAs ((digitsOf d.coefficient).take k ++ '.' :: (digitsOf d.coefficient).drop k) := by
  have hparts : digitsValue ((digitsOf d.coefficient).take k ++ (digitsOf d.coefficient).drop k) =
      d.coefficient * 10 ^ 0 := by
    rw [List.take_append_drop, digitsValue_digitsOf, Nat.pow_zero, Nat.mul_one]
  refine writtenAs_point d _ _ 0 ?_ ?_ ((areDigits_digitsOf _).take k)
    ((areDigits_digitsOf _).drop k) hparts ?_ ?_
  · simp only [ne_eq, List.take_eq_nil_iff, digitsOf_ne_nil, or_false]
    omega
  · simp only [ne_eq, List.drop_eq_nil_iff]
    omega
  · simp only [List.length_drop]
    omega
  · intro _ hhead
    -- the only digit of a zero stands before the point
    rw [List.head?_take, if_neg (by omega)] at hhead
    have hlength : (digitsOf d.coefficient).length = 1 := by rw [digitsOf_eq_zero hhead]; rfl
    omega

/-- Positional notation. -/
lemma writtenAs_positional (d : Decimal) :
    d.WrittenAs (positional (digitsOf d.coefficient)
      (d.exponent + (digitsOf d.coefficient).length)) := by
  generalize hpoint : d.exponent + ((digitsOf d.coefficient).length : ℤ) = point
  simp only [positional]
  split
  · exact d.writtenAs_fraction (by omega)
  · next hpos =>
      split
      · exact d.writtenAs_whole (by omega)
      · next hlt =>
          rw [List.append_assoc]
          exact d.writtenAs_split (by omega) (by omega) (by omega)

/-- Digits with an exponent. -/
lemma writtenAs_scientific (d : Decimal) :
    d.WrittenAs (scientific (digitsOf d.coefficient)
      (d.exponent + (digitsOf d.coefficient).length - 1)) := by
  have hdigits := areDigits_digitsOf d.coefficient
  have hne := digitsOf_ne_nil d.coefficient
  have hvalue := digitsValue_digitsOf d.coefficient
  generalize digitsOf d.coefficient = digits at hdigits hne hvalue
  generalize hplace : d.exponent + (digits.length : ℤ) - 1 = place
  -- one digit stands before the point, and at least two stand in the power
  let power := List.replicate (2 - (digitsOf place.natAbs).length) '0' ++ digitsOf place.natAbs
  have hpower : digitsValue power = place.natAbs := by
    rw [digitsValue_zeros_append, digitsValue_digitsOf]
  let t : NumberText :=
    { negative := d.negative, whole := digits.take 1, fraction := digits.drop 1,
      power := some (place < 0, power), whole_ne_nil := by simp [hne],
      whole_digits := hdigits.take 1, fraction_digits := hdigits.drop 1,
      power_digits := by
        intro p hp
        rw [← Option.some.inj hp]
        exact ⟨by simp [power, digitsOf_ne_nil],
          (areDigits_replicate _).append (areDigits_digitsOf _)⟩ }
  have hcoefficient : t.value.coefficient = d.coefficient * 10 ^ 0 := by
    simp only [t, NumberText.value, List.take_append_drop, hvalue, Nat.pow_zero, Nat.mul_one]
  have hexponent : t.exponent = place := by
    by_cases hneg : place < 0
    · simp only [t, NumberText.exponent, hneg, decide_true, if_true, hpower]
      omega
    · simp only [t, NumberText.exponent, hneg, decide_false, hpower]
      simp only [Bool.false_eq_true, if_false]
      omega
  have htrim : t.IsTrim := by
    intro hhead
    obtain ⟨cs, hcs⟩ := List.head?_eq_some_iff.mp hhead
    have hlength : (digits.take 1).length ≤ 1 := List.length_take_le 1 digits
    have hcs' : digits.take 1 = '0' :: cs := hcs
    rw [hcs', List.length_cons] at hlength
    rw [hcs, List.length_eq_zero_iff.mp (by omega : cs.length = 0)]
  refine ⟨t, rfl, ?_, Or.inr rfl, toDouble_of_mul d 0 rfl hcoefficient ?_, fun _ => htrim⟩
  · by_cases htail : digits.tail = [] <;>
      simp [t, power, NumberText.unsignedChars, NumberText.pointChars, NumberText.powerChars,
        scientific, htail]
  · have hlength : 0 < digits.length := List.length_pos_iff.mpr hne
    simp only [NumberText.value, hexponent, t, List.length_drop]
    omega

/-- The text of a decimal number is the text of a number with the same double, which has a point
or a power of ten and, unless a zero has an exponent, no superfluous zeros in front. -/
theorem exists_numberText (d : Decimal) :
    ∃ t : NumberText, t.chars = d.text ∧ (t.fraction ≠ [] ∨ t.power.isSome) ∧
      t.value.toDouble = d.toDouble ∧ ((d.coefficient = 0 → d.exponent = 0) → t.IsTrim) := by
  -- the exponent decides between the two ways to write the digits
  have hwritten : d.WrittenAs
      (if -4 < d.exponent + (digitsOf d.coefficient).length ∧
          d.exponent + (digitsOf d.coefficient).length ≤ 16 then
        positional (digitsOf d.coefficient) (d.exponent + (digitsOf d.coefficient).length)
      else scientific (digitsOf d.coefficient)
        (d.exponent + (digitsOf d.coefficient).length - 1)) := by
    split
    · exact d.writtenAs_positional
    · exact d.writtenAs_scientific
  obtain ⟨t, hnegative, hunsigned, hfloat, hvalue, htrim⟩ := hwritten
  refine ⟨t, ?_, hfloat, hvalue, htrim⟩
  rw [NumberText.chars, NumberText.signChars, hnegative, hunsigned]
  rfl

end Decimal

/-! ### Numbers read back -/

/-- The text of a finite double is the text of a number with a point or a power of ten and without
superfluous zeros in front, which denotes the double. -/
theorem Double.exists_numberText {d : Double} (h : d.isFinite = true) :
    ∃ t : NumberText, String.ofList t.chars = d.text ∧ (t.fraction ≠ [] ∨ t.power.isSome) ∧
      t.value.toDouble = d ∧ t.IsTrim := by
  cases d with
  | nan => simp [Double.isFinite] at h
  | infinite negative => simp [Double.isFinite] at h
  | finite negative units hrepresentable =>
      -- zero has one digit and no power; for the others, the shortest digits denote the double
      by_cases hzero : units = 0
      · subst hzero
        obtain ⟨t, hchars, hfloat, hvalue, htrim⟩ := Decimal.exists_numberText ⟨negative, 0, 0⟩
        refine ⟨t, ?_, hfloat, hvalue, htrim fun _ => rfl⟩
        rw [hchars]
        rfl
      · obtain ⟨t, hchars, hfloat, hvalue, htrim⟩ :=
          Decimal.exists_numberText (Double.shortest negative units hrepresentable)
        have hshortest := Decimal.toDouble_shortest negative hrepresentable hzero
        refine ⟨t, ?_, hfloat, by rw [hvalue, hshortest], htrim fun hcoefficient => ?_⟩
        · rw [hchars, Double.text, Double.finiteText, if_neg hzero]
        · rw [Decimal.toDouble, if_pos hcoefficient, Double.zero, Double.finite.injEq] at hshortest
          exact absurd hshortest.2.symm hzero

/-- The text of a finite double reads back as the double. -/
theorem Double.readDouble_text {d : Double} (h : d.isFinite = true) : readDouble d.text = .ok d := by
  obtain ⟨t, hchars, -, hvalue, -⟩ := Double.exists_numberText h
  rw [readDouble, ← hchars, String.toList_ofList, t.read?_chars]
  simp only [hvalue]

/-- The text of a whole number is the text of a number without point and power of ten. -/
lemma integerText_eq (i : ℤ) : integerText i = String.ofList (NumberText.ofInt i).chars := by
  simp [integerText, NumberText.chars, NumberText.signChars, NumberText.unsignedChars,
    NumberText.pointChars, NumberText.powerChars, NumberText.ofInt]

/-- The text of a whole number reads back as the number. -/
theorem readInteger_integerText {i : ℤ} (h : IsReadable i) :
    readInteger (integerText i) = .ok i := by
  have hsign := (NumberText.ofInt i).spanSign_chars
  have hspan := spanDigits_append (areDigits_digitsOf i.natAbs) [] (by simp)
  have hunsigned : (NumberText.ofInt i).unsignedChars = Decimal.digitsOf i.natAbs := by
    simp [NumberText.unsignedChars, NumberText.pointChars, NumberText.powerChars, NumberText.ofInt]
  rw [List.append_nil] at hspan
  have hlength : ¬ integerDigitLimit < (Decimal.digitsOf i.natAbs).length := not_lt.mpr h
  simp only [readInteger, integerText_eq, String.toList_ofList, hsign, hunsigned, hspan,
    List.length_map, if_neg hlength, ofDigits_map, digitsValue_digitsOf]
  have hne : (Decimal.digitsOf i.natAbs).isEmpty = false := by simp [Decimal.digitsOf_ne_nil]
  simp only [List.isEmpty_map, hne, List.isEmpty_nil, Bool.not_true, Bool.or_self,
    Bool.false_eq_true, if_false, Except.ok.injEq, NumberText.ofInt, signed, decide_eq_true_eq]
  split <;> omega

/-- The values of digits that are read are below ten, whichever digits count. -/
lemma lt_ten_of_mem_spanDigits {digit? : Char → Option ℕ}
    (hdigit : ∀ c d, digit? c = some d → d < 10) {cs : List Char} {d : ℕ}
    (h : d ∈ (spanDigits digit? cs).1) : d < 10 := by
  induction cs with
  | nil => simp [spanDigits] at h
  | cons c cs ih =>
      simp only [spanDigits] at h
      cases hvalue : digit? c with
      | none => simp [hvalue] at h
      | some e =>
          simp only [hvalue, List.mem_cons] at h
          rcases h with rfl | h
          · exact hdigit c d hvalue
          · exact ih h

/-- A number with few enough digits can be read. -/
lemma isReadable_of_ofDigits {i : ℤ} {digits : List ℕ} (hi : i.natAbs = ofDigits digits)
    (hten : ∀ d ∈ digits, d < 10) (hne : digits ≠ [])
    (hlimit : digits.length ≤ integerDigitLimit) : IsReadable i := by
  have hlt := ofDigits_lt hten
  rw [← hi] at hlt
  have hle := (Nat.length_toDigits_le_iff (b := 10) (by omega)
    (List.length_pos_iff.mpr hne)).mpr hlt
  exact le_trans hle hlimit

lemma natAbs_signed (negative : Bool) (n : ℕ) : (signed negative n).natAbs = n := by
  rw [signed]
  split <;> omega

/-- The digits of a whole number that was read can be read again. -/
theorem isReadable_of_readInteger {text : String} {i : ℤ} (h : readInteger text = .ok i) :
    IsReadable i := by
  simp only [readInteger] at h
  generalize hsign : spanSign text.toList = signed at h
  obtain ⟨negative, unsigned⟩ := signed
  have hten : ∀ d ∈ (spanDigits Text.decimalDigit? unsigned).1, d < 10 :=
    fun d hd => lt_ten_of_mem_spanDigits (fun _ _ h => Text.decimalDigit?_lt h) hd
  generalize spanDigits Text.decimalDigit? unsigned = spanned at h hten
  obtain ⟨digits, rest⟩ := spanned
  simp only at h hten
  -- a longer text is refused before its digits are read
  split at h
  · simp at h
  · next hlimit =>
      split at h
      · simp at h
      · next hempty =>
          have hi : i.natAbs = ofDigits digits := by
            rw [← Except.ok.inj h, natAbs_signed]
          have hne : digits ≠ [] := by
            rintro rfl
            simp at hempty
          exact isReadable_of_ofDigits hi hten hne (not_lt.mp hlimit)

end Concerto
