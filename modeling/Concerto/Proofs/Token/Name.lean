import Concerto.Token.Scan
import Mathlib.Tactic.Common

/-!
Names, as they are checked and as they are scanned.

* `spanName_append_of_all`: a name is scanned up to a character that does not continue it;
* `all_canContinue_spanName`: what is scanned continues a name;
* `spanWord?_append_of_unitsFormName`, `unitsFormName_of_spanWord?`: before such a character, a text
  is scanned as one word exactly when its units form a name.
-/

namespace Concerto

/-! ### Classes of characters -/

open Text (CodeRange CodeTable inOrder)

/-- No range of one list meets a range of the other. Both are gone through side by side: what ends before
a range begins is left behind, since the ranges after that one begin no earlier. -/
def rangesApart : List CodeRange → List CodeRange → Bool
  | [], _ => true
  | r :: ranges, ranges' =>
    match ranges'.dropWhile fun r' => Nat.blt r'.2 r.1 with
    | [] => true
    | r' :: rest => Nat.blt r.2 r'.1 && rangesApart ranges (r' :: rest)

lemma lt_of_rangesApart {ranges ranges' : List CodeRange} (h : inOrder ranges = true)
    (h' : inOrder ranges' = true) (hapart : rangesApart ranges ranges' = true) :
    ∀ r ∈ ranges, ∀ r' ∈ ranges', r.2 < r'.1 ∨ r'.2 < r.1 := by
  induction ranges generalizing ranges' with
  | nil => simp
  | cons r ranges ih =>
      have hfirst := Text.le_of_inOrder h
      -- what is left behind ends before this range, and so before those after it
      have hbehind : ∀ r' ∈ ranges'.takeWhile fun r' => Nat.blt r'.2 r.1, r'.2 < r.1 :=
        fun r' hr' => by simpa using List.all_eq_true.mp List.all_takeWhile r' hr'
      have hsplit := List.takeWhile_append_dropWhile (p := fun r' => Nat.blt r'.2 r.1) (l := ranges')
      rw [rangesApart] at hapart
      generalize ranges'.takeWhile (fun r' => Nat.blt r'.2 r.1) = behind at hbehind hsplit
      generalize ranges'.dropWhile (fun r' => Nat.blt r'.2 r.1) = ahead at hapart hsplit
      subst hsplit
      have hrest : ∀ r₁ ∈ r :: ranges, ∀ r' ∈ ahead, r₁.2 < r'.1 ∨ r'.2 < r₁.1 := by
        have hahead : inOrder ahead = true := by
          clear hapart hbehind
          induction behind with
          | nil => exact h'
          | cons r' behind ih' => exact ih' (Text.inOrder_tail h')
        cases ahead with
        | nil => simp
        | cons r₂ rest =>
            simp only [Bool.and_eq_true, Nat.blt_eq] at hapart
            refine List.forall_mem_cons.mpr ⟨?_, ih (Text.inOrder_tail h) hahead hapart.2⟩
            refine List.forall_mem_cons.mpr ⟨.inl hapart.1, fun r' hr' => .inl ?_⟩
            exact Nat.lt_of_lt_of_le hapart.1 (Text.le_of_inOrder hahead r' hr')
      intro r₁ hr₁ r' hr'
      rcases List.mem_append.mp hr' with hr' | hr'
      · refine .inr (Nat.lt_of_lt_of_le (hbehind r' hr') ?_)
        rcases List.mem_cons.mp hr₁ with rfl | hr₁
        · exact Nat.le_refl _
        · exact hfirst r₁ hr₁
      · exact hrest r₁ hr₁ r' hr'

/-- No character belongs to two tables whose ranges do not meet. -/
lemma not_contains_of_apart {table table' : CodeTable} {c : Char}
    (hapart : rangesApart table.ranges table'.ranges = true) (h : table.contains c = true) :
    table'.contains c = false := by
  by_contra hc
  obtain ⟨r, hr, hlow, hhigh⟩ := CodeTable.contains_iff.mp h
  obtain ⟨r', hr', hlow', hhigh'⟩ := CodeTable.contains_iff.mp (Bool.of_not_eq_false hc)
  have := lt_of_rangesApart table.ordered table'.ordered hapart r hr r' hr'
  omega

/-- The runs of ten that begin at a zero. -/
def decimalRanges : CodeTable where
  ranges := Text.decimalZeros.map fun z => (z, z + 9)
  ordered := by decide +kernel

/-- A digit belongs to one of the tables of digits. -/
lemma isDigit_eq (c : Char) :
    Text.isDigit c = (decimalRanges.contains c || Text.plainDigitRanges.contains c) := by
  rw [Text.isDigit]
  congr 1
  rw [Bool.eq_iff_iff, CodeTable.contains_iff]
  simp [Text.isDecimalDigit, Text.decimalDigit?, decimalRanges]

/-- A letter is no digit. -/
lemma not_isDigit_of_isLetter {c : Char} (h : Text.isLetter c = true) : Text.isDigit c = false := by
  rw [isDigit_eq, not_contains_of_apart (by decide +kernel) h,
    not_contains_of_apart (by decide +kernel) h]
  rfl

/-- Nor is a number that is a letter. -/
lemma not_isDigit_of_isLetterNumber {c : Char} (h : Text.isLetterNumber c = true) :
    Text.isDigit c = false := by
  rw [isDigit_eq, not_contains_of_apart (by decide +kernel) h,
    not_contains_of_apart (by decide +kernel) h]
  rfl

/-- A character that may begin a name is no digit. -/
lemma not_isDigit_of_isIdentifierStart {c : Char} (h : isIdentifierStart c = true) :
    Text.isDigit c = false := by
  simp only [isIdentifierStart, Bool.or_eq_true, decide_eq_true_eq] at h
  obtain ((rfl | rfl) | h) | h := h
  · decide
  · decide
  · exact not_isDigit_of_isLetter h
  · exact not_isDigit_of_isLetterNumber h

/-! ### Names -/

/-- The blanks, and the other characters that symbols, literals and comments begin with. -/
def delimiters : List Char :=
  [' ', '\t', '\r', '\n', '\uFEFF', '/', '"', '\'', '-', '>', '\x7b', '\x7d', '[', ']', '(', ')', ',',
    '.', '=', '@', '*']

/-- A delimiter is part of no name and no number. A backslash is part of a name only in an
escape. -/
lemma not_isIdentifierPart_of_mem {c : Char} (h : c ∈ '\\' :: delimiters) :
    isIdentifierPart c = false ∧ Text.isDigit c = false := by
  have hall : ('\\' :: delimiters).all
      (fun c => !isIdentifierPart c && !Text.isDigit c) = true := by decide +kernel
  simpa using List.all_eq_true.mp hall c h

lemma not_isIdentifierPart_backslash : isIdentifierPart '\\' = false :=
  (not_isIdentifierPart_of_mem List.mem_cons_self).1

lemma not_isIdentifierPart_of_delimiter {c : Char} (h : c ∈ delimiters) :
    isIdentifierPart c = false :=
  (not_isIdentifierPart_of_mem (List.mem_cons_of_mem _ h)).1

/-- What is not part of a name does not begin one. -/
lemma not_isIdentifierStart {c : Char} (h : isIdentifierPart c = false) :
    isIdentifierStart c = false := by
  cases hstart : isIdentifierStart c with
  | false => rfl
  | true => rw [isIdentifierPart_of_start hstart] at h; contradiction

lemma not_isIdentifierStart_backslash : isIdentifierStart '\\' = false :=
  not_isIdentifierStart not_isIdentifierPart_backslash

/-- So no part of a name is the backslash that an escape begins with. -/
lemma ne_backslash_of_isIdentifierPart {c : Char} (h : isIdentifierPart c = true) : c ≠ '\\' := by
  rintro rfl
  rw [not_isIdentifierPart_backslash] at h
  contradiction

lemma ne_backslash_of_isIdentifierStart {c : Char} (h : isIdentifierStart c = true) : c ≠ '\\' :=
  ne_backslash_of_isIdentifierPart (isIdentifierPart_of_start h)

/-- Nor is it a letter. -/
lemma not_isLetter {c : Char} (h : isIdentifierPart c = false) : Text.isLetter c = false := by
  have hstart := not_isIdentifierStart h
  simp only [isIdentifierStart, Bool.or_eq_false_iff] at hstart
  exact hstart.1.2

/-- A keyword is formed like a name. -/
lemma unitsFormName_text (k : Keyword) :
    unitsFormName (NameUnit.ofChars k.text.toList) = true := by
  have hall : Keyword.all.all
      (fun k => unitsFormName (NameUnit.ofChars k.text.toList)) = true := by decide +kernel
  exact List.all_eq_true.mp hall k k.mem_all

/-- A text goes on after a name: its first character, if it has one, does not continue the name
and begins no escape. -/
def EndsName (rest : List Char) : Prop :=
  ∀ c ∈ rest.head?, isIdentifierPart c = false ∧ c ≠ '\\'

/-- A delimiter ends a name. -/
lemma endsName_cons {c : Char} (h : c ∈ delimiters) (rest : List Char) : EndsName (c :: rest) := by
  intro d hd
  rw [← Option.some.inj hd]
  refine ⟨not_isIdentifierPart_of_delimiter h, ?_⟩
  rintro rfl
  simp [delimiters] at h

/-- A character other than the backslash is a unit of its own. -/
lemma ofChars_cons {c : Char} (hc : c ≠ '\\') (cs : List Char) :
    NameUnit.ofChars (c :: cs) = .char c :: NameUnit.ofChars cs := by
  rw [NameUnit.ofChars.eq_def]
  split <;> simp_all

/-- A character other than the backslash begins no escape. -/
lemma splitEscape?_cons {c : Char} (hc : c ≠ '\\') (cs : List Char) :
    splitEscape? (c :: cs) = none := by
  rw [splitEscape?.eq_def]
  split <;> simp_all

lemma spanName_cons {c : Char} (hc : isIdentifierPart c = true) (cs : List Char) :
    spanName (c :: cs) = (c :: (spanName cs).1, (spanName cs).2) := by
  have hne := ne_backslash_of_isIdentifierPart hc
  rw [spanName.eq_def]
  split <;> simp_all

/-- What may not continue a name is not scanned. -/
lemma spanName_of_endsName {rest : List Char} (h : EndsName rest) : spanName rest = ([], rest) := by
  cases rest with
  | nil => rfl
  | cons c cs =>
      obtain ⟨hpart, hne⟩ := h c (by simp)
      rw [spanName.eq_def]
      split <;> simp_all

/-- A name is scanned up to a character that does not continue it. -/
lemma spanName_append_of_all {name rest : List Char}
    (h : (NameUnit.ofChars name).all NameUnit.canContinue = true) (hrest : EndsName rest) :
    spanName (name ++ rest) = (name, rest) := by
  fun_induction NameUnit.ofChars name with
  | case1 => exact spanName_of_endsName hrest
  | case2 a b c d cs hhex ih =>
      simp only [List.all_cons, Bool.and_eq_true] at h
      simp only [List.cons_append, spanName, hhex, if_true, ih h.2]
  | case3 a b c d cs hhex ih =>
      simp [NameUnit.canContinue, not_isIdentifierPart_backslash] at h
  | case4 c cs hescape ih =>
      simp only [List.all_cons, Bool.and_eq_true, NameUnit.canContinue] at h
      rw [List.cons_append, spanName_cons h.1, ih h.2]

/-- What is scanned continues a name. -/
lemma all_canContinue_spanName (cs : List Char) :
    (NameUnit.ofChars (spanName cs).1).all NameUnit.canContinue = true := by
  fun_induction spanName cs with
  | case1 => rfl
  | case2 a b c d cs hhex name rest hspan ih =>
      rw [hspan] at ih
      simp [NameUnit.ofChars, hhex, NameUnit.canContinue, ih]
  | case3 => rfl
  | case4 c cs hescape hpart name rest hspan ih =>
      have hne := ne_backslash_of_isIdentifierPart hpart
      rw [hspan] at ih
      simp [ofChars_cons hne, NameUnit.canContinue, hpart, ih]
  | case5 => rfl

/-- A text whose units form a name begins with an escape or with a character that may begin a
name. -/
lemma exists_of_unitsFormName {word : List Char}
    (h : unitsFormName (NameUnit.ofChars word) = true) :
    ∃ c cs, word = c :: cs ∧ (c = '\\' ∨ isIdentifierStart c = true) := by
  cases word with
  | nil => simp [NameUnit.ofChars, unitsFormName] at h
  | cons c cs =>
      refine ⟨c, cs, rfl, ?_⟩
      by_cases hc : c = '\\'
      · exact Or.inl hc
      · rw [ofChars_cons hc] at h
        simp only [unitsFormName, NameUnit.canStart, Bool.and_eq_true] at h
        exact Or.inr h.1

/-- No delimiter is in what continues a name. -/
lemma not_mem_of_all {cs : List Char} (h : (NameUnit.ofChars cs).all NameUnit.canContinue = true)
    {d : Char} (hd : d ∈ delimiters) : d ∉ cs := by
  -- a name is made of identifier characters and of escapes, and no delimiter is part of either
  have hescape : d ≠ '\\' ∧ d ≠ 'u' ∧ isHexDigit d = false := by
    have hall : delimiters.all (fun d => d ≠ '\\' && d ≠ 'u' && !isHexDigit d) = true := by decide
    simpa [and_assoc] using List.all_eq_true.mp hall d hd
  fun_induction NameUnit.ofChars cs with
  | case1 => simp
  | case2 a b c e rest hhex ih =>
      simp only [Bool.and_eq_true] at hhex
      have hne : ∀ x : Char, isHexDigit x = true → d ≠ x := by
        rintro x hx rfl
        simp [hescape.2.2] at hx
      simp only [List.all_cons, Bool.and_eq_true] at h
      simp [hescape.1, hescape.2.1, hne a hhex.1.1.1, hne b hhex.1.1.2, hne c hhex.1.2,
        hne e hhex.2, ih h.2]
  | case3 a b c e rest hhex ih =>
      simp [NameUnit.canContinue, not_isIdentifierPart_backslash] at h
  | case4 c rest hplain ih =>
      simp only [List.all_cons, Bool.and_eq_true, NameUnit.canContinue] at h
      have hne : d ≠ c := by
        rintro rfl
        rw [not_isIdentifierPart_of_delimiter hd] at h
        exact absurd h.1 Bool.false_ne_true
      simp [hne, ih h.2]

/-- What begins a name continues one. -/
lemma NameUnit.canContinue_of_canStart {unit : NameUnit} (h : unit.canStart = true) :
    unit.canContinue = true := by
  cases unit with
  | escape => rfl
  | char c => exact isIdentifierPart_of_start h

/-- No delimiter is in a name. -/
lemma not_mem_of_unitsFormName {word : List Char}
    (h : unitsFormName (NameUnit.ofChars word) = true) {d : Char} (hd : d ∈ delimiters) :
    d ∉ word := by
  refine not_mem_of_all ?_ hd
  cases hunits : NameUnit.ofChars word with
  | nil => rfl
  | cons first others =>
      rw [hunits, unitsFormName, Bool.and_eq_true] at h
      rw [List.all_cons, Bool.and_eq_true]
      exact ⟨NameUnit.canContinue_of_canStart h.1, h.2⟩

/-- A text whose units form a name is scanned as one word. -/
lemma spanWord?_append_of_unitsFormName {word rest : List Char}
    (h : unitsFormName (NameUnit.ofChars word) = true) (hrest : EndsName rest) :
    spanWord? (word ++ rest) = some (word, rest) := by
  fun_cases NameUnit.ofChars word with
  | case1 => simp [NameUnit.ofChars, unitsFormName] at h
  | case2 a b c d cs hhex =>
      simp only [NameUnit.ofChars, hhex, if_true, unitsFormName, Bool.and_eq_true] at h
      simp only [List.cons_append, spanWord?, splitEscape?, hhex, if_true,
        spanName_append_of_all h.2 hrest, List.nil_append]
  | case3 a b c d cs hhex =>
      simp [NameUnit.ofChars, hhex, unitsFormName, NameUnit.canStart,
        not_isIdentifierStart_backslash] at h
  | case4 c cs hescape =>
      have hunits : NameUnit.ofChars (c :: cs) = .char c :: NameUnit.ofChars cs := by
        rw [NameUnit.ofChars]
        exact hescape
      rw [hunits] at h
      simp only [unitsFormName, NameUnit.canStart, Bool.and_eq_true] at h
      have hne := ne_backslash_of_isIdentifierStart h.1
      simp only [List.cons_append, spanWord?, splitEscape?_cons hne, h.1, if_true,
        spanName_append_of_all h.2 hrest]

/-- The units of a word that is scanned form a name. -/
lemma unitsFormName_of_spanWord? {cs word rest : List Char}
    (h : spanWord? cs = some (word, rest)) : unitsFormName (NameUnit.ofChars word) = true := by
  unfold spanWord? at h
  split at h
  · next escape after hescape =>
      fun_cases splitEscape? cs with
      | case1 a b c d cs hhex =>
          simp only [splitEscape?, hhex, if_true, Option.some.injEq, Prod.mk.injEq] at hescape h
          obtain ⟨rfl, rfl⟩ := hescape
          have hname := all_canContinue_spanName cs
          rw [← h.1]
          simp [NameUnit.ofChars, hhex, unitsFormName, NameUnit.canStart, hname]
      | case2 => simp_all [splitEscape?]
      | case3 => simp_all [splitEscape?]
  · next hescape =>
      split at h
      · next c cs =>
          split at h
          · next hstart =>
              have hne := ne_backslash_of_isIdentifierStart hstart
              have hname := all_canContinue_spanName cs
              simp only [Option.some.injEq, Prod.mk.injEq] at h
              rw [← h.1]
              simp [ofChars_cons hne, unitsFormName, NameUnit.canStart, hstart, hname]
          · simp at h
      · simp at h

end Concerto
