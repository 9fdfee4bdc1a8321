import Concerto.Json.Reader
import Concerto.Json.Writer
import Concerto.Proofs.Number.NumberText

/-!
What the text of a string, a word or a number is read as.

* `Json.readString_writeString`: a string is read back up to its closing quote;
* `Json.EndsValue`: what follows a value inside a document, and does not go on with a number;
* `Json.readNumber_writeInt`: a whole number is read back, if it does not have too many digits;
* `Json.exists_writeDouble`: a finite double is read back as the same double.
-/

namespace Concerto.Json

/-! ### Strings -/

/-- The four digits of a control character denote it. -/
lemma exists_hexDigits {n : ℕ} (h : n < 0x20) :
    ∃ a b c d, Text.hexDigits 4 n = [a, b, c, d] ∧ hexNumber? a b c d = some n := by
  have hall : ∀ n < 0x20,
      Text.hexDigits 4 n = ['0', '0', Nat.digitChar (n / 16), Nat.digitChar (n % 16)] ∧
      hexNumber? '0' '0' (Nat.digitChar (n / 16)) (Nat.digitChar (n % 16)) = some n := by
    decide +kernel
  exact ⟨_, _, _, _, hall n h⟩

/-- An escape with a single character is read as what it stands for. -/
lemma readUnits_escape (start : List Char) {e c : Char} (he : escaped? e = some c) (hu : e ≠ 'u')
    {cs rest : List Char} {units : List ℕ} (h : readUnits start cs = .ok (units, rest)) :
    readUnits start ('\\' :: e :: cs) = .ok (c.toNat :: units, rest) := by
  rw [readUnits.eq_def]
  split <;> simp_all [bind, Except.bind, pure, Except.pure]
  next hescape hcs => exact absurd hcs.2.symm (hescape e cs hcs.1.symm)

/-- A character is read back as its code, whatever text follows it. -/
lemma readUnits_writeChar (start : List Char) (c : Char) {cs rest : List Char} {units : List ℕ}
    (hne : cs ≠ []) (h : readUnits start cs = .ok (units, rest)) :
    readUnits start (writeChar c ++ cs) = .ok (c.toNat :: units, rest) := by
  obtain ⟨next, cs, rfl⟩ := List.exists_cons_of_ne_nil hne
  unfold writeChar
  -- seven characters have an escape of one letter
  iterate 7
    split
    · next hc =>
        subst hc
        exact readUnits_escape start rfl (by decide) h
  split
  · next hcontrol =>
      obtain ⟨a, b, c', d, hdigits, hnumber⟩ := exists_hexDigits hcontrol
      rw [hdigits]
      simp [readUnits, hnumber, h, bind, Except.bind, pure, Except.pure]
  -- any other character stands for itself
  · next hcontrol =>
      rw [List.singleton_append, readUnits.eq_def]
      split <;> simp_all [bind, Except.bind, pure, Except.pure]

/-- The characters of a string are read back up to the closing quote. -/
lemma readUnits_literal (start rest : List Char) (cs : List Char) :
    readUnits start (cs.flatMap writeChar ++ '"' :: rest) = .ok (cs.map Char.toNat, rest) := by
  induction cs with
  | nil => simp [readUnits]
  | cons c cs ih =>
      rw [List.flatMap_cons, List.append_assoc, List.map_cons]
      exact readUnits_writeChar start c (by simp) ih

/-- A character is no half of a pair. -/
lemma not_surrogate (c : Char) : c.toNat < 0xD800 ∨ 0xDFFF < c.toNat := by
  rcases c.valid with h | h
  · exact Or.inl h
  · exact Or.inr h.1

/-- Codes of characters make up the characters. -/
lemma joinUnits_map_toNat (cs : List Char) : joinUnits (cs.map Char.toNat) = some cs := by
  have hhigh : ∀ c : Char, isHighSurrogate c.toNat = false := by
    intro c
    rcases not_surrogate c with h | h <;> simp [isHighSurrogate] <;> omega
  have hlow : ∀ c : Char, isLowSurrogate c.toNat = false := by
    intro c
    rcases not_surrogate c with h | h <;> simp [isLowSurrogate] <;> omega
  have hunit : ∀ c : Char, unitChar? c.toNat = some c := by
    intro c
    simp [unitChar?, hhigh, hlow, Char.ofNat_toNat]
  induction cs with
  | nil => rfl
  | cons c cs ih =>
      -- two codes in a row are looked at together, so the second character is split off too
      cases cs with
      | nil => simp [joinUnits, hunit]
      | cons d cs =>
          rw [List.map_cons] at ih
          rw [List.map_cons, List.map_cons, joinUnits, hhigh, hunit, ih]
          rfl

/-- A string is read back. -/
theorem readString_writeString (start rest : List Char) (s : String) :
    readString start (s.toList.flatMap writeChar ++ '"' :: rest) = .ok (s, rest) := by
  simp only [readString, readUnits_literal, bind, Except.bind, joinUnits_map_toNat,
    String.ofList_toList, pure, Except.pure]

/-! ### Numbers -/

/-- A text goes on after a value inside a document: its first character, if it has one, is a comma, a
closing bracket or a line break. -/
def EndsValue (rest : List Char) : Prop := ∀ c ∈ rest.head?, c ∈ [',', ']', '\x7d', '\n']

/-- Such a text does not go on with a number. -/
lemma EndsValue.not_number {rest : List Char} (h : EndsValue rest) :
    ∀ c ∈ rest.head?, Text.asciiDigit? c = none ∧ c ≠ '.' ∧ c ≠ 'e' ∧ c ≠ 'E' := by
  intro c hc
  have hmem := h c hc
  simp only [List.mem_cons, List.not_mem_nil, or_false] at hmem
  rcases hmem with rfl | rfl | rfl | rfl <;> decide

/-- Digits up to a character that is none are read with their values. -/
lemma spanDigits_ascii {cs : List Char} (hcs : AreDigits cs) (rest : List Char)
    (hrest : ∀ c ∈ rest.head?, Text.asciiDigit? c = none) :
    spanDigits Text.asciiDigit? (cs ++ rest) = (cs.map fun c => c.toNat - 48, rest) :=
  spanDigits_append_of (fun _ => asciiDigit?_of_isDigit) hcs rest hrest

/-- A whole part without superfluous zeros is read. -/
lemma spanWhole_append (t : NumberText) (htrim : t.IsTrim) (rest : List Char)
    (hrest : ∀ c ∈ rest.head?, Text.asciiDigit? c = none) :
    spanWhole (t.whole ++ rest) = some (t.whole.map fun c => c.toNat - 48, rest) := by
  obtain ⟨c, cs, hwhole, -⟩ := t.exists_whole
  by_cases hc : c = '0'
  · have hzero : t.whole = ['0'] := htrim (by rw [hwhole, hc]; rfl)
    rw [hzero]
    rfl
  · have hspan := spanDigits_ascii t.whole_digits rest hrest
    rw [hwhole, List.cons_append] at hspan ⊢
    rw [spanWhole.eq_def]
    split
    · next hcs => exact absurd (List.cons.inj hcs).1 hc
    · rw [hspan]
      rfl

/-- Digits after a point are read. -/
lemma spanFraction_append {digits : List Char} (hne : digits ≠ []) (hdigits : AreDigits digits)
    (rest : List Char) (hrest : ∀ c ∈ rest.head?, Text.asciiDigit? c = none) :
    spanFraction ('.' :: digits ++ rest) = some (digits.map fun c => c.toNat - 48, rest) := by
  obtain ⟨d, ds, rfl⟩ := List.exists_cons_of_ne_nil hne
  rw [List.cons_append, spanFraction, spanDigits_ascii hdigits rest hrest]
  rfl

/-- Without a point there are none. -/
lemma spanFraction_of_head {rest : List Char} (h : ∀ c ∈ rest.head?, c ≠ '.') :
    spanFraction rest = none := by
  rw [spanFraction.eq_def]
  split
  · exact absurd rfl (h '.' rfl)
  · rfl

/-- A power of ten is read, if there is one. -/
lemma spanExponent_powerChars (t : NumberText) {rest : List Char} (hrest : EndsValue rest) :
    spanExponent (t.powerChars ++ rest) = t.power.map fun _ => (t.exponent, rest) := by
  cases hpower : t.power with
  | none =>
      simp only [NumberText.powerChars, hpower, List.nil_append, Option.map_none]
      cases rest with
      | nil => rfl
      | cons c rest =>
          obtain ⟨-, -, he, hE⟩ := hrest.not_number c rfl
          simp [spanExponent, he, hE]
  | some p =>
      obtain ⟨negative, digits⟩ := p
      obtain ⟨hne, hdigits⟩ := t.power_digits _ hpower
      have hspan := spanDigits_ascii hdigits rest fun c hc => (hrest.not_number c hc).1
      -- one digit is split off, as the reader asks for it
      obtain ⟨d, ds, rfl⟩ := List.exists_cons_of_ne_nil hne
      have hvalue := ofDigits_map (d :: ds)
      simp only [List.map_cons, List.cons_append] at hspan hvalue
      cases negative <;>
        simp [NumberText.powerChars, NumberText.exponent, hpower, spanExponent, spanSign, hspan,
          hvalue, signed]

/-- Neither the point nor the power of ten begins with a digit, nor does what follows. -/
lemma head?_powerChars_append (t : NumberText) {rest : List Char} (hrest : EndsValue rest) :
    ∀ c ∈ (t.powerChars ++ rest).head?, Text.asciiDigit? c = none ∧ c ≠ '.' := by
  intro c hc
  rw [List.head?_append] at hc
  rcases Option.or_eq_some_iff.mp hc with hc | ⟨-, hc⟩
  · rw [t.head?_powerChars c hc]
    decide
  · exact ⟨(hrest.not_number c hc).1, (hrest.not_number c hc).2.1⟩

/-- A dash is no digit. -/
lemma ne_dash_of_isDigit {c : Char} (h : c.isDigit = true) : c ≠ '-' := by
  rintro rfl
  revert h
  decide

/-- The whole part is read up to the point or to the power of ten. -/
lemma spanWhole_unsignedChars (t : NumberText) (htrim : t.IsTrim) {rest : List Char}
    (hrest : EndsValue rest) : spanWhole (t.unsignedChars ++ rest) =
      some (t.whole.map fun c => c.toNat - 48, t.pointChars ++ (t.powerChars ++ rest)) := by
  have hpoint : ∀ c ∈ (t.pointChars ++ (t.powerChars ++ rest)).head?,
      Text.asciiDigit? c = none := by
    by_cases hfraction : t.fraction = []
    · rw [NumberText.pointChars, if_pos hfraction, List.nil_append]
      exact fun c hc => (head?_powerChars_append t hrest c hc).1
    · rw [NumberText.pointChars, if_neg hfraction]
      rintro c ⟨⟩
      decide
  rw [NumberText.unsignedChars, List.append_assoc, List.append_assoc]
  exact spanWhole_append t htrim _ hpoint

/-- A text is a dash and another text, or the other text itself, which does not begin with a dash. -/
def SignedAs (cs : List Char) (negative : Bool) (unsigned : List Char) : Prop :=
  if negative then cs = '-' :: unsigned else unsigned = cs ∧ cs.head? ≠ some '-'

/-- A number is a sign and what comes after it. -/
lemma signedAs_chars (t : NumberText) (rest : List Char) :
    SignedAs (t.chars ++ rest) t.negative (t.unsignedChars ++ rest) := by
  obtain ⟨c, cs, hc, hdigit⟩ := t.exists_whole
  have hhead : (t.unsignedChars ++ rest).head? = some c := by
    simp [NumberText.unsignedChars, hc]
  unfold SignedAs
  split
  · next hnegative => simp [NumberText.chars, NumberText.signChars, hnegative]
  · next hnegative =>
      have hchars : t.unsignedChars ++ rest = t.chars ++ rest := by
        simp [NumberText.chars, NumberText.signChars, hnegative]
      refine ⟨hchars, ?_⟩
      rw [← hchars, hhead]
      simpa using ne_dash_of_isDigit hdigit

/-- The kind and the value of a number. -/
def ofNumberText (t : NumberText) : Json :=
  if t.fraction = [] ∧ t.power = none then .int (signed t.negative (digitsValue t.whole))
  else .double t.value.toDouble

/-- A number without superfluous zeros in front is read, unless it is a whole number with too many
digits. -/
theorem readNumber_chars (t : NumberText) (htrim : t.IsTrim)
    (hlimit : t.fraction = [] → t.power = none → t.whole.length ≤ integerDigitLimit)
    {rest : List Char} (hrest : EndsValue rest) :
    readNumber (t.chars ++ rest) = .ok (ofNumberText t, rest) := by
  have hwhole := spanWhole_unsignedChars t htrim hrest
  have hexponent := spanExponent_powerChars t hrest
  have hsign := signedAs_chars t rest
  generalize t.chars ++ rest = cs at hsign ⊢
  unfold readNumber
  split
  next negative unsigned hsplit =>
  -- only a dash before the digits is a sign
  have hparts : negative = t.negative ∧ unsigned = t.unsignedChars ++ rest := by
    generalize t.unsignedChars ++ rest = text at hsign ⊢
    unfold SignedAs at hsign
    split at hsplit <;> split at hsign <;> simp_all
  obtain ⟨rfl, rfl⟩ := hparts
  simp only [hwhole]
  -- with a fraction or a power the number is a double, otherwise its digits are counted
  by_cases hfraction : t.fraction = []
  · rw [NumberText.pointChars, if_pos hfraction, List.nil_append,
      spanFraction_of_head fun c hc => (head?_powerChars_append t hrest c hc).2]
    simp only [hexponent]
    cases hpower : t.power with
    | none =>
        simp only [Option.map_none, List.length_map, ofNumberText, hfraction, hpower, and_self,
          if_true, if_neg (not_lt.mpr (hlimit hfraction hpower)), ofDigits_map,
          NumberText.powerChars, List.nil_append]
    | some p =>
        simp [ofNumberText, hfraction, hpower, NumberText.value, ofDigits_map]
  · rw [NumberText.pointChars, if_neg hfraction,
      spanFraction_append hfraction t.fraction_digits _
        fun c hc => (head?_powerChars_append t hrest c hc).1]
    simp only [hexponent, ← List.map_append, ofDigits_map, List.length_map, ofNumberText, hfraction,
      false_and, if_false]
    cases hpower : t.power <;>
      simp [NumberText.value, NumberText.exponent, NumberText.powerChars, hpower]

/-- The text of a whole number is read as the number. -/
theorem readNumber_writeInt {i : ℤ} (h : IsReadable i) {rest : List Char} (hrest : EndsValue rest) :
    readNumber (writeInt i ++ rest) = .ok (.int i, rest) := by
  have htrim : (NumberText.ofInt i).IsTrim := by
    intro hhead
    have hzero : i.natAbs = 0 := Decimal.digitsOf_eq_zero hhead
    show Decimal.digitsOf i.natAbs = ['0']
    rw [hzero]
    rfl
  have hvalue : ofNumberText (.ofInt i) = .int i := by
    rw [ofNumberText, if_pos ⟨rfl, rfl⟩, NumberText.ofInt, digitsValue_digitsOf, signed]
    congr 1
    split
    next h =>
      have hnegative : i < 0 := of_decide_eq_true h
      omega
    next h =>
      have hnonneg : ¬ i < 0 := fun hi => h (decide_eq_true hi)
      omega
  have hchars : writeInt i = (NumberText.ofInt i).chars := by
    simp [writeInt, NumberText.chars, NumberText.signChars, NumberText.unsignedChars,
      NumberText.pointChars, NumberText.powerChars, NumberText.ofInt]
  rw [hchars, readNumber_chars _ htrim (fun _ _ => h) hrest, hvalue]

/-- The text of a finite double is the text of a number that is read as the double. -/
lemma exists_writeDouble {d : Double} (h : d.isFinite = true) :
    ∃ t : NumberText, t.chars = writeDouble d ∧
      ∀ rest, EndsValue rest → readNumber (writeDouble d ++ rest) = .ok (.double d, rest) := by
  obtain ⟨t, hchars, hfloat, hvalue, htrim⟩ := Double.exists_numberText h
  have hwritten : t.chars = writeDouble d := by
    cases d with
    | nan => simp [Double.isFinite] at h
    | infinite negative => simp [Double.isFinite] at h
    | finite negative units hrepresentable => exact String.ofList_injective hchars
  refine ⟨t, hwritten, fun rest hrest => ?_⟩
  have hnumber : ofNumberText t = .double d := by
    rw [ofNumberText, hvalue, if_neg]
    rintro ⟨hfraction, hpower⟩
    simp [hfraction, hpower] at hfloat
  rw [← hwritten, readNumber_chars t htrim _ hrest, hnumber]
  intro hfraction hpower
  simp [hfraction, hpower] at hfloat

/-! ### Words -/

/-- A number is none of the words for values. -/
lemma readWord?_chars (t : NumberText) (rest : List Char) : readWord? (t.chars ++ rest) = none := by
  obtain ⟨c, cs, hwhole, hdigit⟩ := t.exists_whole
  have hletters : ∀ d ∈ ['n', 't', 'f', 'N', 'I', '-'], d ≠ c := by
    rintro d hd rfl
    simp only [List.mem_cons, List.not_mem_nil, or_false] at hd
    rcases hd with rfl | rfl | rfl | rfl | rfl | rfl <;> revert hdigit <;> decide
  simp only [List.forall_mem_cons] at hletters
  cases hnegative : t.negative <;>
    simp [readWord?, words, NumberText.chars, NumberText.signChars, NumberText.unsignedChars,
      hnegative, hwhole, hletters]

end Concerto.Json
