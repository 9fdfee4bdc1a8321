import Concerto.Proofs.Token.Scanning
import Mathlib.Tactic.TFAE

/-!
String literals and numbers, wherever the scanner meets them.

* `scanTokens_quotedString`: a string literal at the beginning of a text is its first token, and scanning
  goes on right after it, in the first line;
* `NumberForm`: a number by its parts: a sign, digits, a fraction and a power of ten;
* `NumberForm.length_le_spanUnsigned`: no number at the beginning of a text is longer than what is taken of
  it;
* `scanToken_number_tfae`: the number that is scanned is the longest one.
-/

namespace Concerto

/-! ### Strings -/

/-- A line feed is escaped in a string literal. -/
lemma lineFeed_notMem_quotedString (value : String) : '\n' ∉ (quotedString value).toList := by
  have hchar : ∀ c, '\n' ∉ stringLiteralChar c := by
    intro c
    unfold stringLiteralChar
    split <;> simp_all [eq_comm]
  simp only [quotedString, String.toList_ofList, List.mem_append, List.mem_cons, List.mem_flatMap]
  rintro ((hopening | ⟨c, -, hc⟩) | hclosing)
  · exact absurd hopening (by decide)
  · exact hchar c hc
  · simp at hclosing

/-- Text without line feeds leads on in the same line. -/
lemma Place.after_of_notMem (p : Place) {text : List Char} (h : '\n' ∉ text) :
    p.after text = ⟨p.line, p.column + text.length⟩ := by
  induction text generalizing p with
  | nil => rfl
  | cons c text ih =>
      obtain ⟨hc, htext⟩ := not_or.mp (mt List.mem_cons.mpr h)
      have hnext : p.next c = ⟨p.line, p.column + 1⟩ := if_neg (Ne.symm hc)
      calc p.after (c :: text) = (p.next c).after text := rfl
        _ = ⟨p.line, p.column + 1 + text.length⟩ := by rw [ih (p.next c) htext, hnext]
        _ = ⟨p.line, p.column + (c :: text).length⟩ := by
            rw [List.length_cons, Nat.add_assoc, Nat.add_comm 1]

/-- A string literal at the beginning of a text is its first token, whatever comes after it. The value of
the token is the text that the literal was made of, and scanning goes on with the first character after
the literal, which is still in the first line. A literal on its own is this token and the end. -/
theorem scanTokens_quotedString (value rest : String) :
    (∃ c cs, spanGap (quotedString value ++ rest).toList = .ok ([], c :: cs) ∧
      scanToken .start c cs =
        .ok (⟨.string, value, (quotedString value).toList⟩, rest.toList)) ∧
    Place.start.after (quotedString value).toList = ⟨1, 1 + (quotedString value).length⟩ ∧
    scanTokens .start .start (quotedString value ++ rest).toList =
      (scanTokens (Context.start.push .string) ⟨1, 1 + (quotedString value).length⟩ rest.toList).map
        (prepend [⟨.string, value, .start⟩]) ∧
    tokenize (quotedString value) =
      .ok [⟨.string, value, .start⟩, ⟨.eof, "", ⟨1, 1 + (quotedString value).length⟩⟩] := by
  have hplace : Place.start.after (quotedString value).toList =
      ⟨1, 1 + (quotedString value).length⟩ := by
    rw [Place.after_of_notMem _ (lineFeed_notMem_quotedString value), String.length_toList]
    rfl
  -- the literal is one token, whatever the text after it
  have hscan : ∀ rest : List Char, scanTokens .start .start ((quotedString value).toList ++ rest) =
      (scanTokens (Context.start.push .string) ⟨1, 1 + (quotedString value).length⟩ rest).map
        (prepend [⟨.string, value, .start⟩]) := by
    intro rest
    rw [← hplace]
    exact scanTokens_scannedAs (scannedAs_string value rfl) .start
  refine ⟨?_, hplace, ?_, ?_⟩
  · have hliteral : ScannedAs .start (quotedString value).toList (.string value) rest.toList :=
      scannedAs_string value rfl
    obtain ⟨hgap, c, cs, hcs, htoken⟩ := hliteral
    refine ⟨c, cs ++ rest.toList, ?_, htoken⟩
    rw [String.toList_append, spanGap_of_not_opensGap hgap, hcs]
    rfl
  · rw [String.toList_append]
    exact hscan rest.toList
  · have hend := hscan []
    rw [List.append_nil, scanTokens_nil] at hend
    exact tokenize_eq_ok.mpr ⟨_, _, hend, rfl⟩

/-! ### Numbers -/

/-- One digit or more, of any script. -/
def IsDigits (cs : List Char) : Prop := cs ≠ [] ∧ ∀ c ∈ cs, Text.isDigit c = true

/-- A point and digits. -/
def IsFraction (cs : List Char) : Prop := ∃ digits, IsDigits digits ∧ cs = '.' :: digits

/-- An `e`, maybe a sign, and digits. -/
def IsPower (cs : List Char) : Prop :=
  ∃ mark ∈ ['e', 'E'], ∃ sign ∈ [[], ['+'], ['-']], ∃ digits, IsDigits digits ∧
    cs = mark :: (sign ++ digits)

/-- A number: maybe a dash, then digits, and maybe a fraction and a power of ten. -/
@[ext]
structure NumberForm where
  sign : List Char
  whole : List Char
  fraction : List Char
  power : List Char
  sign_mem : sign ∈ [[], ['-']]
  isDigits_whole : IsDigits whole
  isFraction : fraction = [] ∨ IsFraction fraction
  isPower : power = [] ∨ IsPower power

namespace NumberForm

variable (n : NumberForm)

/-- The number without its sign. -/
def unsigned : List Char := n.whole ++ (n.fraction ++ n.power)

/-- The number as it is written. -/
def chars : List Char := n.sign ++ n.unsigned

/-- A number is an integer if it has neither a fraction nor a power of ten. -/
def kind : TokenKind := if n.fraction = [] ∧ n.power = [] then .integer else .float

/-- The number is the longest one that a text begins with. -/
def IsLongest (text : List Char) : Prop :=
  n.chars <+: text ∧ ∀ n' : NumberForm, n'.chars <+: text → n'.chars.length ≤ n.chars.length

end NumberForm

/-! #### What is taken of a text -/

/-- None of the marks between the digits of a number is a digit. -/
lemma not_isDigit_marks : ∀ c ∈ ['.', 'e', 'E', '+', '-'], Text.isDigit c = false := by
  have hall : ['.', 'e', 'E', '+', '-'].all (fun c => !Text.isDigit c) = true := by decide
  simpa only [List.all_eq_true, Bool.not_eq_true'] using hall

/-- Digits are taken with all that follow them. -/
lemma IsDigits.takeWhile_append {digits : List Char} (h : IsDigits digits) (rest : List Char) :
    (digits ++ rest).takeWhile Text.isDigit = digits ++ rest.takeWhile Text.isDigit ∧
      (digits ++ rest).dropWhile Text.isDigit = rest.dropWhile Text.isDigit :=
  ⟨List.takeWhile_append_of_pos h.2, List.dropWhile_append_of_pos h.2⟩

/-- A digit and all that follow it are digits. -/
lemma isDigits_cons_takeWhile {d : Char} (hd : Text.isDigit d = true) (cs : List Char) :
    IsDigits (d :: cs.takeWhile Text.isDigit) :=
  ⟨by simp, List.forall_mem_cons.mpr ⟨hd, fun c hc => List.all_eq_true.mp List.all_takeWhile c hc⟩⟩

/-- A fraction is taken with all digits that follow it. -/
lemma IsFraction.spanPoint_append {fraction : List Char} (h : IsFraction fraction)
    (rest : List Char) : spanPoint (fraction ++ rest) =
      (fraction ++ rest.takeWhile Text.isDigit, rest.dropWhile Text.isDigit) := by
  obtain ⟨digits, hdigits, rfl⟩ := h
  obtain ⟨d, ds, rfl⟩ := List.exists_cons_of_ne_nil hdigits.1
  obtain ⟨hd, hds⟩ := List.forall_mem_cons.mp hdigits.2
  simp [spanPoint, hd, List.takeWhile_append_of_pos hds, List.dropWhile_append_of_pos hds]

/-- A power of ten is taken with all digits that follow it. -/
lemma IsPower.spanPower_append {power : List Char} (h : IsPower power) (rest : List Char) :
    spanPower (power ++ rest) =
      (power ++ rest.takeWhile Text.isDigit, rest.dropWhile Text.isDigit) := by
  obtain ⟨mark, hmark, sign, hsign, digits, hdigits, rfl⟩ := h
  obtain ⟨d, ds, rfl⟩ := List.exists_cons_of_ne_nil hdigits.1
  obtain ⟨hd, hds⟩ := List.forall_mem_cons.mp hdigits.2
  have htake : (ds ++ rest).takeWhile Text.isDigit = ds ++ rest.takeWhile Text.isDigit :=
    List.takeWhile_append_of_pos hds
  have hdrop : (ds ++ rest).dropWhile Text.isDigit = rest.dropWhile Text.isDigit :=
    List.dropWhile_append_of_pos hds
  have hmark : mark = 'e' ∨ mark = 'E' := by simpa using hmark
  have hplus : Text.isDigit '+' = false := not_isDigit_marks _ (by simp)
  have hdash : Text.isDigit '-' = false := not_isDigit_marks _ (by simp)
  -- neither sign is a digit, so a sign is seen after the letter
  simp only [List.mem_cons, List.not_mem_nil, or_false] at hsign
  rcases hsign with rfl | rfl | rfl <;>
    simp [spanPower, hmark, hd, htake, hdrop, hplus, hdash]

/-- What is taken for a fraction is one. -/
lemma isFraction_spanPoint (cs : List Char) :
    (spanPoint cs).1 = [] ∨ IsFraction (spanPoint cs).1 := by
  fun_cases spanPoint cs with
  | case1 d cs hd => exact .inr ⟨_, isDigits_cons_takeWhile hd cs, rfl⟩
  | case2 => exact .inl rfl
  | case3 => exact .inl rfl

/-- What is taken for a power of ten is one. -/
lemma isPower_spanPower (cs : List Char) : (spanPower cs).1 = [] ∨ IsPower (spanPower cs).1 := by
  fun_cases spanPower cs with
  | case1 e s cs h =>
      simp only [Bool.and_eq_true, Bool.or_eq_true, decide_eq_true_eq] at h
      exact .inr ⟨e, by simpa using h.1, [], by simp, _, isDigits_cons_takeWhile h.2 cs, rfl⟩
  | case2 e s hunsigned d cs h =>
      simp only [Bool.and_eq_true, Bool.or_eq_true, decide_eq_true_eq] at h
      obtain ⟨⟨hmark, hsign⟩, hd⟩ := h
      refine .inr ⟨e, by simpa using hmark, [s], by simpa using hsign, _,
        isDigits_cons_takeWhile hd cs, rfl⟩
  | case3 => exact .inl rfl
  | case4 => exact .inl rfl
  | case5 => exact .inl rfl

/-- A fraction or a power of ten does not begin with a digit. -/
lemma not_isDigit_head {fraction power : List Char} (hfraction : fraction = [] ∨ IsFraction fraction)
    (hpower : power = [] ∨ IsPower power) :
    ∀ c ∈ (fraction ++ power).head?, Text.isDigit c = false := by
  intro c hc
  refine not_isDigit_marks c ?_
  rcases hfraction with rfl | ⟨digits, -, rfl⟩
  · rcases hpower with rfl | ⟨mark, hmark, sign, -, digits, -, rfl⟩
    · cases hc
    · obtain rfl : mark = c := by simpa using hc
      simp only [List.mem_cons, List.not_mem_nil, or_false] at hmark
      rcases hmark with rfl | rfl <;> decide
  · obtain rfl : '.' = c := by simpa using hc
    decide

/-- Digits are left out of a text up to a part that does not begin with one. -/
lemma exists_dropWhile {part : List Char} (h : ∀ c ∈ part.head?, Text.isDigit c = false)
    (rest : List Char) : ∃ left, (part ++ rest).dropWhile Text.isDigit = part ++ left ∧
      left.length ≤ rest.length := by
  cases part with
  | nil => exact ⟨_, rfl, (List.dropWhile_suffix _).length_le⟩
  | cons c part => exact ⟨rest, by simp [h c (by simp)], le_rfl⟩

/-- What begins with a power of ten, or with nothing, is left by the scanner of fractions. -/
lemma exists_spanPoint {power : List Char} (h : power = [] ∨ IsPower power) (rest : List Char) :
    ∃ left, (spanPoint (power ++ rest)).2 = power ++ left ∧ left.length ≤ rest.length := by
  rcases h with rfl | ⟨mark, hmark, sign, -, digits, -, rfl⟩
  · have happend := congrArg List.length (spanPoint_append rest)
    rw [List.length_append] at happend
    exact ⟨(spanPoint rest).2, rfl, by omega⟩
  · refine ⟨rest, ?_, le_rfl⟩
    have hpoint : mark ≠ '.' := by
      rintro rfl
      simp at hmark
    rw [List.cons_append, spanPoint.eq_def]
    split <;> simp_all

namespace NumberForm

variable {n n' : NumberForm} {rest rest' : List Char}

/-- After the digits before it, the fraction and the power of ten are still left. -/
lemma exists_left_whole (n : NumberForm) (rest : List Char) :
    ∃ left, (n.unsigned ++ rest).dropWhile Text.isDigit = n.fraction ++ (n.power ++ left) ∧
      left.length ≤ rest.length := by
  obtain ⟨left, hleft, hlength⟩ :=
    exists_dropWhile (not_isDigit_head n.isFraction n.isPower) rest
  refine ⟨left, ?_, hlength⟩
  rw [unsigned, List.append_assoc, (n.isDigits_whole.takeWhile_append _).2, hleft, List.append_assoc]

/-- After the fraction, the power of ten is still left. -/
lemma exists_left_fraction (n : NumberForm) (rest : List Char) :
    ∃ left, (spanPoint (n.fraction ++ (n.power ++ rest))).2 = n.power ++ left ∧
      left.length ≤ rest.length := by
  rcases n.isFraction with hnone | hfraction
  · rw [hnone]
    exact exists_spanPoint n.isPower rest
  · rw [hfraction.spanPoint_append]
    exact exists_dropWhile (by simpa using not_isDigit_head (.inl rfl) n.isPower) rest

/-- After the power of ten, nothing of the number is left. -/
lemma length_left_power (n : NumberForm) (rest : List Char) :
    (spanPower (n.power ++ rest)).2.length ≤ rest.length := by
  rcases n.isPower with hnone | hpower
  · have happend := congrArg List.length (spanPower_append rest)
    rw [List.length_append] at happend
    rw [hnone, List.nil_append]
    omega
  · rw [hpower.spanPower_append]
    exact (List.dropWhile_suffix _).length_le

/-- No number that a text begins with is longer than what is taken of the text. -/
lemma length_left_le (n : NumberForm) (rest : List Char) :
    (spanUnsigned (n.unsigned ++ rest)).2.2.2.length ≤ rest.length := by
  obtain ⟨left, hwhole, hle⟩ := n.exists_left_whole rest
  obtain ⟨left', hfraction, hle'⟩ := n.exists_left_fraction left
  calc (spanUnsigned (n.unsigned ++ rest)).2.2.2.length
      = (spanPower (n.power ++ left')).2.length := by
        rw [← hfraction, ← hwhole]
        rfl
    _ ≤ left'.length := n.length_left_power left'
    _ ≤ left.length := hle'
    _ ≤ rest.length := hle

/-- A number is taken apart into its parts. -/
lemma spanUnsigned_unsigned (n : NumberForm) :
    spanUnsigned n.unsigned = (n.whole, n.fraction, n.power, []) := by
  -- before nothing at all, the scanners leave nothing
  obtain ⟨left, hwhole, hle⟩ := n.exists_left_whole []
  obtain rfl : left = [] := List.length_eq_zero_iff.mp (by simpa using hle)
  obtain ⟨left, hfraction, hle⟩ := n.exists_left_fraction []
  obtain rfl : left = [] := List.length_eq_zero_iff.mp (by simpa using hle)
  have hpower : (spanPower n.power).2 = [] :=
    List.length_eq_zero_iff.mp (by simpa using n.length_left_power [])
  simp only [List.append_nil] at hwhole hfraction
  -- the scanners lose nothing, so what each takes is told by what it leaves
  have hwhole' : n.unsigned.takeWhile Text.isDigit = n.whole := by
    have happend := List.takeWhile_append_dropWhile (p := Text.isDigit) (l := n.unsigned)
    rw [hwhole] at happend
    exact List.append_cancel_right happend
  have hfraction' : (spanPoint (n.fraction ++ n.power)).1 = n.fraction := by
    have happend := spanPoint_append (n.fraction ++ n.power)
    rw [hfraction] at happend
    exact List.append_cancel_right happend
  have hpower' : (spanPower n.power).1 = n.power := by
    have happend := spanPower_append n.power
    rwa [hpower, List.append_nil] at happend
  simp only [spanUnsigned, hwhole, hwhole', hfraction, hfraction', hpower, hpower']

/-- The first character tells whether a number has a sign. -/
lemma sign_eq (h : n.chars ++ rest = n'.chars ++ rest') : n.sign = n'.sign := by
  have hhead : ∀ (n : NumberForm) (rest : List Char),
      (n.chars ++ rest).head? = some '-' ↔ n.sign = ['-'] := by
    intro n rest
    have hmem := n.sign_mem
    simp only [List.mem_cons, List.not_mem_nil, or_false] at hmem
    rcases hmem with hsign | hsign
    -- a number without sign begins with a digit, which is no dash
    · obtain ⟨d, ds, hds⟩ := List.exists_cons_of_ne_nil n.isDigits_whole.1
      have hd : Text.isDigit d = true := n.isDigits_whole.2 d (by simp [hds])
      have hne : d ≠ '-' := by
        rintro rfl
        exact absurd hd (by decide)
      simp [chars, unsigned, hsign, hds, hne]
    · simp [chars, hsign]
  have hiff : n.sign = ['-'] ↔ n'.sign = ['-'] := by rw [← hhead n rest, h, hhead]
  have hmem := n.sign_mem
  have hmem' := n'.sign_mem
  simp only [List.mem_cons, List.not_mem_nil, or_false] at hmem hmem'
  rcases hmem with hsign | hsign
  · rcases hmem' with hsign' | hsign'
    · rw [hsign, hsign']
    · exact hiff.mpr hsign' ▸ hsign'.symm
  · rw [hsign, hiff.mp hsign]

/-- A number is told by its characters. -/
lemma chars_injective (h : n.chars = n'.chars) : n = n' := by
  have hsign : n.sign = n'.sign := sign_eq (show n.chars ++ [] = n'.chars ++ [] by rw [h])
  have hunsigned : n.unsigned = n'.unsigned := by
    rw [chars, chars, hsign] at h
    exact List.append_cancel_left h
  have hspan := n.spanUnsigned_unsigned
  rw [hunsigned, n'.spanUnsigned_unsigned] at hspan
  simp only [Prod.mk.injEq, and_true] at hspan
  exact NumberForm.ext hsign hspan.1.symm hspan.2.1.symm hspan.2.2.symm

/-- There is only one longest number. -/
lemma IsLongest.eq {text : List Char} (h : n.IsLongest text) (h' : n'.IsLongest text) : n = n' :=
  chars_injective (List.prefix_of_prefix_length_le h.1 h'.1 (h'.2 n h.1) |>.eq_of_length_le
    (h.2 n' h'.1))

end NumberForm

/-! #### Scanning -/

/-- A number is scanned, and it is the longest one. -/
lemma exists_scanNumber {sign : List Char} (hsign : sign ∈ [[], ['-']]) {d : Char}
    (hd : Text.isDigit d = true) (ds : List Char) :
    ∃ (n : NumberForm) (rest : List Char), n.IsLongest (sign ++ d :: ds) ∧
      n.chars ++ rest = sign ++ d :: ds ∧
      scanNumber sign (d :: ds) = (.verbatim n.kind n.chars, rest) := by
  have hwhole : IsDigits (spanUnsigned (d :: ds)).1 := by
    have htake : (spanUnsigned (d :: ds)).1 = d :: ds.takeWhile Text.isDigit :=
      List.takeWhile_cons_of_pos hd
    rw [htake]
    exact isDigits_cons_takeWhile hd ds
  have happend := spanUnsigned_append (d :: ds)
  let n : NumberForm :=
    ⟨sign, (spanUnsigned (d :: ds)).1, (spanUnsigned (d :: ds)).2.1, (spanUnsigned (d :: ds)).2.2.1,
      hsign, hwhole, isFraction_spanPoint _, isPower_spanPower _⟩
  have hunsigned : n.unsigned ++ (spanUnsigned (d :: ds)).2.2.2 = d :: ds := by
    simpa [n, NumberForm.unsigned] using happend
  have hchars : n.chars ++ (spanUnsigned (d :: ds)).2.2.2 = sign ++ d :: ds := by
    rw [NumberForm.chars, List.append_assoc, hunsigned]
  refine ⟨n, _, ⟨⟨_, hchars⟩, fun n' hn' => ?_⟩, hchars, ?_⟩
  -- another number of the text has the same sign, and the scanner takes at least as much of the
  -- rest
  · obtain ⟨rest', hrest'⟩ := hn'
    have hsame := NumberForm.sign_eq (hrest'.trans hchars.symm)
    have hunsigned' : n'.unsigned ++ rest' = d :: ds := by
      rw [NumberForm.chars, hsame, List.append_assoc] at hrest'
      exact List.append_cancel_left hrest'
    have hleft := n'.length_left_le rest'
    have hlength := congrArg List.length (hunsigned.trans hunsigned'.symm)
    rw [hunsigned'] at hleft
    simp only [List.length_append] at hlength
    rw [NumberForm.chars, NumberForm.chars, List.length_append, List.length_append, hsame]
    omega
  · simp [scanNumber, NumberForm.kind, NumberForm.chars, NumberForm.unsigned, n]

/-- A number begins at a place: there is a digit, or a dash before one, and no location of an import is
due. -/
def BeginsNumber (context : Context) (c : Char) (cs : List Char) : Prop :=
  context.expectsUri = false ∧
    (Text.isDigit c = true ∨ c = '-' ∧ ∃ d ∈ cs.head?, Text.isDigit d = true)

/-- Where a number begins, the scanner takes one. -/
lemma exists_scanToken {context : Context} {c : Char} {cs : List Char}
    (h : BeginsNumber context c cs) :
    ∃ sign ∈ [[], ['-']], ∃ d ds, Text.isDigit d = true ∧ c :: cs = sign ++ d :: ds ∧
      scanToken context c cs = .ok (scanNumber sign (d :: ds)) := by
  obtain ⟨hcontext, hdigit | ⟨rfl, d, hd, hdigit⟩⟩ := h
  · exact ⟨[], by simp, c, cs, hdigit, rfl, scanToken_eq_ok_iff.mpr (.number hcontext hdigit)⟩
  · obtain ⟨ds, rfl⟩ : ∃ ds, cs = d :: ds := by
      cases cs with
      | nil => cases hd
      | cons e ds => exact ⟨ds, by rw [Option.some.inj hd]⟩
    exact ⟨['-'], by simp, d, ds, hdigit, rfl, scanToken_eq_ok_iff.mpr (.negative hcontext hdigit)⟩

/-- Where the scanner takes a number, one begins. -/
lemma beginsNumber_of_scanToken {context : Context} {c : Char} {cs rest : List Char}
    {lexeme : Lexeme} (h : scanToken context c cs = .ok (lexeme, rest))
    (hkind : lexeme.kind = .integer ∨ lexeme.kind = .float) : BeginsNumber context c cs := by
  cases scanToken_eq_ok_iff.mp h with
  | location | pattern | symbol | arrow | string => simp [Lexeme.verbatim] at hkind
  | negative huri hd => exact ⟨huri, .inr ⟨rfl, _, rfl, hd⟩⟩
  | number huri hc => exact ⟨huri, .inl hc⟩
  | word =>
      unfold Lexeme.ofWord at hkind
      split at hkind <;> simp [Lexeme.verbatim] at hkind

/-- Where, and only where, a number begins, the token that is scanned is a number: the longest one that the
text from there on begins with, of which there is only one. The token is an integer if the number has
neither a fraction nor a power of ten, and scanning goes on right after it. -/
theorem scanToken_number_tfae (context : Context) (c : Char) (cs : List Char) :
    List.TFAE [
      BeginsNumber context c cs,
      ∃ lexeme rest, scanToken context c cs = .ok (lexeme, rest) ∧
        (lexeme.kind = .integer ∨ lexeme.kind = .float),
      ∃ (n : NumberForm) (rest : List Char), (∀ n' : NumberForm, n'.IsLongest (c :: cs) ↔ n' = n) ∧
        n.chars ++ rest = c :: cs ∧
        scanToken context c cs = .ok (.verbatim n.kind n.chars, rest)] := by
  tfae_have 1 → 3 := by
    intro h
    obtain ⟨sign, hsign, d, ds, hd, htext, hscan⟩ := exists_scanToken h
    obtain ⟨n, rest, hlongest, hchars, hnumber⟩ := exists_scanNumber hsign hd ds
    rw [← htext] at hlongest hchars
    refine ⟨n, rest, fun n' => ⟨fun h' => h'.eq hlongest, ?_⟩, hchars, ?_⟩
    · rintro rfl
      exact hlongest
    · rw [hscan, hnumber]
  tfae_have 3 → 2 := by
    rintro ⟨n, rest, -, -, hscan⟩
    refine ⟨_, rest, hscan, ?_⟩
    simp only [Lexeme.verbatim, NumberForm.kind]
    split <;> simp
  tfae_have 2 → 1 := by
    rintro ⟨lexeme, rest, hscan, hkind⟩
    exact beginsNumber_of_scanToken hscan hkind
  tfae_finish

example : scanToken .start '1' "2.e5".toList =
    .ok (.verbatim .integer "12".toList, ".e5".toList) := by
  decide +kernel

end Concerto
