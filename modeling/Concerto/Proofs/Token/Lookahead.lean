import Concerto.Proofs.Token.Scanning

/-!
What the scanner sees of the text after a token.

* `EndsToken`: a text that is empty or begins like a gap, with a brace or with an at sign;
* `SameAhead`: two texts are the same until the second one is such a text;
* `scanToken_ahead`: a token is scanned before the second text as it has been before the first.

The scanner looks at some characters ahead, each of them in a class of its own, to see whether they go
on with what it has taken. None of the `boundaries` is in one of these classes.
-/

namespace Concerto

/-! ### Classes of characters -/

/-- The characters that a gap may begin with, the braces and the at sign. -/
def boundaries : List Char := [' ', '\t', '\r', '\n', '\uFEFF', '/', '\x7b', '\x7d', '@']

/-- No boundary is in the class. -/
def skipsBoundaries (p : Char → Bool) : Bool := boundaries.all fun c => !p c

/-- A text begins with a character of each class, one after another. -/
def beginsWith : List (Char → Bool) → List Char → Bool
  | [], _ => true
  | _ :: _, [] => false
  | p :: classes, c :: cs => p c && beginsWith classes cs

lemma beginsWith_cons_iff {p : Char → Bool} {classes : List (Char → Bool)} {cs : List Char} :
    beginsWith (p :: classes) cs = true ↔
      ∃ c after, cs = c :: after ∧ p c = true ∧ beginsWith classes after = true := by
  cases cs <;> simp [beginsWith]

lemma eq_false_of_skipsBoundaries {p : Char → Bool} (h : skipsBoundaries p = true) {c : Char}
    (hc : c ∈ boundaries) : p c = false := by
  simpa using List.all_eq_true.mp h c hc

lemma mem_delimiters_of_boundary {c : Char} (h : c ∈ boundaries) : c ∈ delimiters := by
  have hall : boundaries.all (· ∈ delimiters) = true := by decide
  simpa using List.all_eq_true.mp hall c h

lemma skipsBoundaries_isDigit : skipsBoundaries Text.isDigit = true := by decide

lemma skipsBoundaries_isIdentifierPart : skipsBoundaries isIdentifierPart = true := by
  refine List.all_eq_true.mpr fun c hc => ?_
  rw [not_isIdentifierPart_of_delimiter (mem_delimiters_of_boundary hc)]
  rfl

lemma skipsBoundaries_isLetter : skipsBoundaries Text.isLetter = true := by
  refine List.all_eq_true.mpr fun c hc => ?_
  rw [not_isLetter (not_isIdentifierPart_of_delimiter (mem_delimiters_of_boundary hc))]
  rfl

/-! ### Texts -/

/-- The text is empty or begins with a boundary. -/
def EndsToken (rest : List Char) : Prop := ∀ c ∈ rest.head?, c ∈ boundaries

/-- What ends a token ends a name. -/
lemma EndsToken.endsName {rest : List Char} (h : EndsToken rest) : EndsName rest := by
  intro c hc
  have hmem := mem_delimiters_of_boundary (h c hc)
  refine ⟨not_isIdentifierPart_of_delimiter hmem, ?_⟩
  rintro rfl
  simp [delimiters] at hmem

/-- The texts are the same until the second of them ends or goes on with a boundary. -/
inductive SameAhead : List Char → List Char → Prop
  | stop {rest rest' : List Char} (h : EndsToken rest') : SameAhead rest rest'
  | cons (c : Char) {rest rest' : List Char} (h : SameAhead rest rest') :
      SameAhead (c :: rest) (c :: rest')

namespace SameAhead

variable {rest rest' : List Char}

lemma refl (rest : List Char) : SameAhead rest rest := by
  induction rest with
  | nil => exact .stop (by simp [EndsToken])
  | cons c rest ih => exact .cons c ih

lemma append (text : List Char) (h : SameAhead rest rest') :
    SameAhead (text ++ rest) (text ++ rest') := by
  induction text with
  | nil => exact h
  | cons c text ih => exact .cons c ih

/-- The second text begins with no characters that the first does not begin with. -/
lemma not_beginsWith (h : SameAhead rest rest') {classes : List (Char → Bool)}
    (hclasses : classes.all skipsBoundaries = true) (hrest : beginsWith classes rest = false) :
    beginsWith classes rest' = false := by
  -- where the texts part, the second one has a character that none of the classes holds
  induction h generalizing classes with
  | @stop rest rest' hend =>
      cases classes with
      | nil => cases hrest
      | cons p classes =>
          cases rest' with
          | nil => rfl
          | cons c cs =>
              rw [List.all_cons, Bool.and_eq_true] at hclasses
              simp [beginsWith, eq_false_of_skipsBoundaries hclasses.1 (hend c (by simp))]
  | cons c h ih =>
      cases classes with
      | nil => cases hrest
      | cons p classes =>
          rw [List.all_cons, Bool.and_eq_true] at hclasses
          rw [beginsWith, Bool.and_eq_false_iff] at hrest ⊢
          exact hrest.imp_right (ih hclasses.2)

/-- Characters of a class are taken up to the same place. -/
lemma takeWhile {p : Char → Bool} (hp : skipsBoundaries p = true) {cs : List Char}
    (h : SameAhead (cs.dropWhile p) rest') :
    (cs.takeWhile p ++ rest').takeWhile p = cs.takeWhile p ∧
      (cs.takeWhile p ++ rest').dropWhile p = rest' := by
  have hrest : beginsWith [p] (cs.dropWhile p) = false := by
    have hhead := List.head?_dropWhile_not p cs
    cases hdrop : cs.dropWhile p with
    | nil => rfl
    | cons c after => simpa [beginsWith, hdrop] using hhead
  have hbegins := h.not_beginsWith (by simpa using hp) hrest
  refine takeWhile_append_of_head _ _ (fun c hc => List.all_eq_true.mp List.all_takeWhile c hc) ?_
  intro c hc
  cases rest' with
  | nil => cases hc
  | cons d after =>
      cases hc
      simpa [beginsWith] using hbegins

end SameAhead

/-- What ends a token may be put after any text. -/
lemma EndsToken.sameAhead {rest : List Char} (h : EndsToken rest) (text : List Char) :
    SameAhead text (text ++ rest) := by
  have hstop : SameAhead [] rest := .stop h
  have happend := hstop.append text
  rwa [List.append_nil] at happend

/-! ### Numbers -/

/-- The letter of a power of ten. -/
def isPowerLetter (c : Char) : Bool := c = 'e' || c = 'E'

/-- The sign of a power of ten. -/
def isPowerSign (c : Char) : Bool := c = '+' || c = '-'

lemma spanPoint_eq_nil_iff {cs : List Char} :
    spanPoint cs = ([], cs) ↔ beginsWith [(· = '.'), Text.isDigit] cs = false := by
  fun_cases spanPoint cs with
  | case1 => simp_all [beginsWith]
  | case2 => simp_all [beginsWith]
  | case3 cs hpoint =>
      refine iff_of_true rfl (Bool.eq_false_iff.mpr ?_)
      simp only [ne_eq, beginsWith_cons_iff, decide_eq_true_eq]
      rintro ⟨_, _, rfl, rfl, d, after, rfl, -⟩
      exact hpoint d after rfl

lemma spanPower_eq_nil_iff {cs : List Char} :
    spanPower cs = ([], cs) ↔ beginsWith [isPowerLetter, Text.isDigit] cs = false ∧
      beginsWith [isPowerLetter, isPowerSign, Text.isDigit] cs = false := by
  fun_cases spanPower cs with
  | case1 e s cs hshort =>
      rw [Bool.and_eq_true] at hshort
      refine iff_of_false (by simp) fun h => ?_
      simp [beginsWith, isPowerLetter, hshort.1, hshort.2] at h
  | case2 e s hshort d cs hlong =>
      rw [Bool.and_eq_true, Bool.and_eq_true] at hlong
      refine iff_of_false (by simp) fun h => ?_
      simp [beginsWith, isPowerLetter, isPowerSign, hlong.1.1, hlong.1.2, hlong.2] at h
  | case3 e s hshort d cs hlong =>
      exact iff_of_true rfl ⟨by simpa [beginsWith, isPowerLetter] using hshort,
        by simpa [beginsWith, isPowerLetter, isPowerSign] using hlong⟩
  | case4 e s hshort =>
      exact iff_of_true rfl ⟨by simpa [beginsWith, isPowerLetter] using hshort,
        by simp [beginsWith]⟩
  | case5 cs hpower =>
      refine iff_of_true rfl ⟨Bool.eq_false_iff.mpr ?_, Bool.eq_false_iff.mpr ?_⟩ <;>
        simp only [ne_eq, beginsWith_cons_iff]
      · rintro ⟨e, _, rfl, -, s, after, rfl, -⟩
        exact hpower e s after rfl
      · rintro ⟨e, _, rfl, -, s, after, rfl, -⟩
        exact hpower e s after rfl

/-- The classes of the characters of an escape. -/
def escapeClasses : List (Char → Bool) :=
  [(· = '\\'), (· = 'u'), isHexDigit, isHexDigit, isHexDigit, isHexDigit]

lemma skipsBoundaries_escapeClasses : escapeClasses.all skipsBoundaries = true := by decide

lemma splitEscape?_eq_none_iff {cs : List Char} :
    splitEscape? cs = none ↔ beginsWith escapeClasses cs = false := by
  fun_cases splitEscape? cs with
  | case1 => simp_all [beginsWith, escapeClasses]
  | case2 => simp_all [beginsWith, escapeClasses]
  | case3 cs hescape =>
      refine iff_of_true rfl (Bool.eq_false_iff.mpr ?_)
      simp only [ne_eq, escapeClasses, beginsWith_cons_iff, decide_eq_true_eq]
      rintro ⟨_, _, rfl, rfl, _, _, rfl, rfl, a, _, rfl, -, b, _, rfl, -, c, _, rfl, -, d, after, rfl,
        -⟩
      exact hescape a b c d after rfl

lemma spanName_eq_nil_iff {cs : List Char} :
    spanName cs = ([], cs) ↔ splitEscape? cs = none ∧ beginsWith [isIdentifierPart] cs = false := by
  fun_cases spanName cs with
  | case3 => simp_all [splitEscape?, beginsWith, not_isIdentifierPart_backslash]
  | case5 => simp_all [splitEscape?, beginsWith]
  | _ => simp_all [splitEscape?, beginsWith]

namespace SameAhead

variable {rest rest' : List Char}

lemma spanPoint_nil (h : SameAhead rest rest') (hspan : spanPoint rest = ([], rest)) :
    spanPoint rest' = ([], rest') :=
  spanPoint_eq_nil_iff.mpr (h.not_beginsWith (by decide) (spanPoint_eq_nil_iff.mp hspan))

lemma spanPower_nil (h : SameAhead rest rest') (hspan : spanPower rest = ([], rest)) :
    spanPower rest' = ([], rest') := by
  obtain ⟨hshort, hlong⟩ := spanPower_eq_nil_iff.mp hspan
  exact spanPower_eq_nil_iff.mpr
    ⟨h.not_beginsWith (by decide) hshort, h.not_beginsWith (by decide) hlong⟩

lemma splitEscape?_none (h : SameAhead rest rest') (hsplit : splitEscape? rest = none) :
    splitEscape? rest' = none :=
  splitEscape?_eq_none_iff.mpr
    (h.not_beginsWith skipsBoundaries_escapeClasses (splitEscape?_eq_none_iff.mp hsplit))

lemma spanName_nil (h : SameAhead rest rest') (hspan : spanName rest = ([], rest)) :
    spanName rest' = ([], rest') := by
  obtain ⟨hescape, hpart⟩ := spanName_eq_nil_iff.mp hspan
  exact spanName_eq_nil_iff.mpr ⟨h.splitEscape?_none hescape,
    h.not_beginsWith (by simpa using skipsBoundaries_isIdentifierPart) hpart⟩

end SameAhead

variable {rest : List Char}

/-- A point is taken with the digits after it. -/
lemma spanPoint_ahead {cs : List Char} (h : SameAhead (spanPoint cs).2 rest) :
    spanPoint ((spanPoint cs).1 ++ rest) = ((spanPoint cs).1, rest) := by
  cases hbegins : beginsWith [(· = '.'), Text.isDigit] cs with
  | false =>
      have hnil := spanPoint_eq_nil_iff.mpr hbegins
      rw [hnil] at h ⊢
      exact h.spanPoint_nil hnil
  | true =>
      simp only [beginsWith_cons_iff, decide_eq_true_eq] at hbegins
      obtain ⟨_, _, rfl, rfl, d, cs, rfl, hd, -⟩ := hbegins
      simp only [spanPoint, hd, if_true] at h ⊢
      obtain ⟨htake, hdrop⟩ := h.takeWhile skipsBoundaries_isDigit
      simp [hd, htake, hdrop]

/-- A power of ten is taken with its sign and its digits. -/
lemma spanPower_ahead {cs : List Char} (h : SameAhead (spanPower cs).2 rest) :
    spanPower ((spanPower cs).1 ++ rest) = ((spanPower cs).1, rest) := by
  -- a power with a sign is taken only if there is no digit right after the letter
  cases hshort : beginsWith [isPowerLetter, Text.isDigit] cs with
  | true =>
      simp only [beginsWith_cons_iff, isPowerLetter] at hshort
      obtain ⟨e, _, rfl, he, d, cs, rfl, hd, -⟩ := hshort
      simp only [spanPower, he, hd, Bool.and_self, if_true] at h ⊢
      obtain ⟨htake, hdrop⟩ := h.takeWhile skipsBoundaries_isDigit
      simp [he, hd, htake, hdrop]
  | false =>
      cases hlong : beginsWith [isPowerLetter, isPowerSign, Text.isDigit] cs with
      | false =>
          have hnil := spanPower_eq_nil_iff.mpr ⟨hshort, hlong⟩
          rw [hnil] at h ⊢
          exact h.spanPower_nil hnil
      | true =>
          simp only [beginsWith_cons_iff, isPowerLetter, isPowerSign] at hlong
          obtain ⟨e, _, rfl, he, s, _, rfl, hs, d, cs, rfl, hd, -⟩ := hlong
          have hs' : Text.isDigit s = false := by
            simpa [beginsWith, isPowerLetter, he] using hshort
          simp only [spanPower, he, hs, hs', hd, Bool.and_self, Bool.and_false, if_true,
            Bool.false_eq_true, if_false] at h ⊢
          obtain ⟨htake, hdrop⟩ := h.takeWhile skipsBoundaries_isDigit
          simp [he, hs, hs', hd, htake, hdrop]

/-- A number is taken, part by part. -/
lemma spanUnsigned_ahead {cs whole point power after : List Char}
    (hspan : spanUnsigned cs = (whole, point, power, after)) (h : SameAhead after rest) :
    spanUnsigned (whole ++ point ++ power ++ rest) = (whole, point, power, rest) := by
  simp only [spanUnsigned, Prod.mk.injEq] at hspan
  obtain ⟨rfl, rfl, rfl, rfl⟩ := hspan
  set others := cs.dropWhile Text.isDigit with hothers
  have hpoint := h.append (spanPower (spanPoint others).2).1
  rw [spanPower_append] at hpoint
  have hwhole := hpoint.append (spanPoint others).1
  rw [spanPoint_append, hothers] at hwhole
  obtain ⟨htake, hdrop⟩ := hwhole.takeWhile skipsBoundaries_isDigit
  rw [← hothers] at htake hdrop
  simp only [spanUnsigned, List.append_assoc, htake, hdrop, spanPoint_ahead hpoint, spanPower_ahead h]

/-- A number is scanned before another text. -/
lemma scanNumber_ahead {sign cs text after : List Char} {lexeme : Lexeme}
    (hscan : scanNumber sign cs = (lexeme, after)) (htext : lexeme.text = sign ++ text)
    (h : SameAhead after rest) : scanNumber sign (text ++ rest) = (lexeme, rest) := by
  rcases hspan : spanUnsigned cs with ⟨whole, point, power, after'⟩
  simp only [scanNumber, hspan, Prod.mk.injEq] at hscan
  obtain ⟨rfl, rfl⟩ := hscan
  have htext : text = whole ++ point ++ power := by
    simpa [Lexeme.verbatim] using htext.symm
  rw [scanNumber, htext, spanUnsigned_ahead hspan h]

/-! ### Names -/

/-- A name is taken up to the same place. -/
lemma spanName_ahead {cs : List Char} (h : SameAhead (spanName cs).2 rest) :
    spanName ((spanName cs).1 ++ rest) = ((spanName cs).1, rest) := by
  -- the units of the name are read again one by one; the rest begins with none, and so does the
  -- other text
  fun_induction spanName cs with
  | case1 => exact h.spanName_nil rfl
  | case2 a b c d cs hhex name after hspan ih =>
      rw [hspan] at ih
      simp [spanName, hhex, ih h]
  | case3 a b c d cs hhex => exact h.spanName_nil (by simp [spanName, hhex])
  | case4 c cs hescape hpart name after hspan ih =>
      rw [hspan] at ih
      rw [List.cons_append, spanName_cons hpart, ih h]
  | case5 c cs hescape hpart =>
      have hnone : splitEscape? (c :: cs) = none := by
        rw [splitEscape?]
        exact fun a b d e tail heq => hescape a b d e tail (List.cons.inj heq).1 (List.cons.inj heq).2
      exact h.spanName_nil (spanName_eq_nil_iff.mpr ⟨hnone, by simpa [beginsWith] using hpart⟩)

/-- A word is taken before another text. -/
lemma spanWord?_ahead {cs word after : List Char} (hspan : spanWord? cs = some (word, after))
    (h : SameAhead after rest) : spanWord? (word ++ rest) = some (word, rest) := by
  unfold spanWord? at hspan
  split at hspan
  · next escape tail hescape =>
      fun_cases splitEscape? cs with
      | case1 a b c d cs hhex =>
          simp only [splitEscape?, hhex, if_true, Option.some.injEq, Prod.mk.injEq] at hescape hspan
          obtain ⟨rfl, rfl⟩ := hescape
          obtain ⟨rfl, rfl⟩ := hspan
          simp [spanWord?, splitEscape?, hhex, spanName_ahead h]
      | case2 => simp_all [splitEscape?]
      | case3 => simp_all [splitEscape?]
  · split at hspan
    · next c cs _ =>
        simp only [Option.ite_none_right_eq_some, Option.some.injEq, Prod.mk.injEq] at hspan
        obtain ⟨hstart, rfl, rfl⟩ := hspan
        simp [spanWord?, splitEscape?_cons (ne_backslash_of_isIdentifierStart hstart), hstart,
          spanName_ahead h]
    · cases hspan

/-! ### Strings and patterns -/

/-- A closing quote that is no backslash. -/
lemma spanString_quote {quote : Char} (hne : quote ≠ '\\') (cs : List Char) :
    spanString quote (quote :: cs) = .ok ([], [quote], cs) := by
  rw [spanString.eq_def]
  split <;> simp_all

/-- A character that stands for itself. -/
lemma spanString_char {quote c : Char} {cs value text after : List Char} (hne : c ≠ '\\')
    (hquote : c ≠ quote) (hline : c ≠ '\n') (h : spanString quote cs = .ok (value, text, after)) :
    spanString quote (c :: cs) = .ok (c :: value, c :: text, after) := by
  rw [spanString.eq_def]
  split <;> simp_all

/-- A string ends with its closing quote. -/
lemma spanString_text {quote : Char} {cs value text after : List Char}
    (h : spanString quote cs = .ok (value, text, after)) (rest : List Char) :
    spanString quote (text ++ rest) = .ok (value, text, rest) := by
  fun_induction spanString quote cs generalizing value text after with
  | case1 => simp at h
  | case2 => simp at h
  | case3 => simp at h
  | case4 e cs c hescape value' text' after' hspan ih =>
      simp only [Except.ok.injEq, Prod.mk.injEq] at h
      obtain ⟨rfl, rfl, rfl⟩ := h
      simp [spanString, hescape, ih hspan]
  | case5 => simp at h
  | case6 cs hend hescape =>
      simp only [Except.ok.injEq, Prod.mk.injEq] at h
      obtain ⟨rfl, rfl, rfl⟩ := h
      -- a quote that were a backslash would begin an escape
      have hne : quote ≠ '\\' := by
        rintro rfl
        cases cs with
        | nil => exact hend rfl rfl
        | cons d ds => exact hescape d ds rfl rfl
      exact spanString_quote hne rest
  | case7 => simp at h
  | case8 c cs hend hescape hquote hline value' text' after' hspan ih =>
      simp only [Except.ok.injEq, Prod.mk.injEq] at h
      obtain ⟨rfl, rfl, rfl⟩ := h
      have hne : c ≠ '\\' := by
        rintro rfl
        cases cs with
        | nil => exact hend rfl rfl
        | cons d ds => exact hescape d ds rfl rfl
      exact spanString_char hne hquote hline (ih hspan)
  | case9 => simp at h

/-! ### Tokens -/

variable {text after : List Char} {lexeme : Lexeme}

/-- A number is written with a digit after its sign. -/
lemma exists_text_scanNumber {d : Char} (hd : Text.isDigit d = true) (sign ds : List Char) :
    ∃ tail, (scanNumber sign (d :: ds)).1.text = sign ++ d :: tail := by
  simp [scanNumber, Lexeme.verbatim, spanUnsigned, hd]

/-- A token is scanned before another text. -/
lemma scanToken_ahead {context : Context} {c : Char} {cs : List Char}
    (h : scanToken context c cs = .ok (lexeme, after)) (htext : lexeme.text = c :: text)
    (hahead : SameAhead after rest)
    (huri : context.expectsUri = true → ∀ d ∈ rest.head?, Text.isBlank d = true) :
    scanToken context c (text ++ rest) = .ok (lexeme, rest) := by
  -- each way to take a token depends on what follows it only through the end of the token
  refine scanToken_eq_ok_iff.mpr ?_
  cases scanToken_eq_ok_iff.mp h with
  | location hexpects hc =>
      cases htext
      obtain ⟨htake, hdrop⟩ := takeWhile_append_of_head (p := (!Text.isBlank ·))
        (cs.takeWhile (!Text.isBlank ·)) rest
        (fun d hd => List.all_eq_true.mp List.all_takeWhile d hd)
        fun d hd => by simp [huri hexpects d hd]
      have htakes : Takes context c (cs.takeWhile (!Text.isBlank ·) ++ rest) _ _ :=
        .location hexpects hc
      rwa [htake, hdrop] at htakes
  | @pattern _ body flags hexpects hpattern hspan =>
      cases htext
      obtain ⟨htake, hdrop⟩ := hahead.takeWhile skipsBoundaries_isLetter
      have hbody := spanPattern_body (isPatternBody_of_spanPattern hspan)
        (flags.takeWhile Text.isLetter ++ rest)
      have htakes := Takes.pattern hexpects hpattern hbody
      rwa [htake, hdrop, ← List.cons_append, ← List.append_assoc] at htakes
  | symbol hexpects hs =>
      cases htext
      exact .symbol hexpects hs
  | arrow hexpects =>
      cases htext
      exact .arrow hexpects
  -- the digit after the dash belongs to the token, so it is not in what follows
  | @negative d ds hexpects hd =>
      obtain ⟨tail, htail⟩ := exists_text_scanNumber hd ['-'] ds
      obtain rfl : text = d :: tail := (List.cons.inj (htext.symm.trans htail)).2
      have htakes : Takes context '-' (d :: (tail ++ rest)) _ _ := .negative hexpects hd
      rwa [← List.cons_append, scanNumber_ahead rfl htext hahead] at htakes
  | string hexpects hquote hspan =>
      cases htext
      exact .string hexpects hquote (spanString_text hspan rest)
  | number hexpects hc =>
      have htakes : Takes context c (text ++ rest) _ _ := .number hexpects hc
      rwa [← List.cons_append, scanNumber_ahead rfl htext hahead] at htakes
  | word hexpects hword =>
      rw [Lexeme.ofWord_text] at htext
      subst htext
      exact .word hexpects (spanWord?_ahead hword hahead)

/-- The location of an import ends with a blank or with the text. -/
lemma isBlank_of_expectsUri {context : Context} {c : Char} {cs : List Char}
    (huri : context.expectsUri = true) (h : scanToken context c cs = .ok (lexeme, after)) :
    ∀ d ∈ after.head?, Text.isBlank d = true := by
  cases scanToken_eq_ok_iff.mp h with
  | location =>
      intro d hd
      have hhead := List.head?_dropWhile_not (!Text.isBlank ·) cs
      rw [Option.mem_def.mp hd] at hhead
      simpa using hhead
  | pattern hexpects | symbol hexpects | arrow hexpects | negative hexpects | string hexpects
  | number hexpects | word hexpects =>
      rw [huri] at hexpects
      contradiction

/-- Where no location is expected, a slash begins nothing but a pattern, which is more than that slash. -/
lemma exists_text_of_slash {context : Context} {cs : List Char}
    (huri : context.expectsUri = false) (h : scanToken context '/' cs = .ok (lexeme, after)) :
    ∃ c text, lexeme.text = '/' :: c :: text := by
  generalize hslash : '/' = c at h
  cases scanToken_eq_ok_iff.mp h with
  | location hexpects =>
      rw [huri] at hexpects
      contradiction
  | @pattern _ body =>
      cases body with
      | nil => exact ⟨_, _, rfl⟩
      | cons c body => exact ⟨_, _, rfl⟩
  | symbol _ hs =>
      subst hslash
      cases hs
  | arrow | negative => exact absurd hslash (by decide)
  | string _ hquote =>
      subst hslash
      exact absurd hquote (by decide)
  | number _ hc => exact absurd hslash.symm (startsNumber hc).2.1
  | word _ hword => exact absurd hslash.symm (startsWord (starts_of_spanWord? hword)).2.1

/-- No gap begins with a token, before another text either. -/
lemma not_opensGap_of_scanToken {context : Context} {c : Char} {cs : List Char}
    (hgap : opensGap (c :: cs) = false) (h : scanToken context c cs = .ok (lexeme, after))
    (huri : context.expectsUri = true → ∀ d ∈ rest.head?, Text.isBlank d = true) :
    opensGap (lexeme.text ++ rest) = false := by
  obtain ⟨happend, hne⟩ := scanToken_append h
  have hopens : opensGap lexeme.text = false := by
    by_contra hopens
    have happend' := opensGap_append (Bool.of_not_eq_false hopens) after
    rw [happend, hgap] at happend'
    contradiction
  cases hexpects : context.expectsUri with
  | true =>
      refine not_opensGap_append hne hopens fun d hd => ?_
      have hblank := huri hexpects d hd
      constructor <;>
        · rintro rfl
          exact absurd hblank (by decide)
  | false =>
      obtain ⟨d, text, htext⟩ := List.exists_cons_of_ne_nil hne
      rw [htext] at happend hopens ⊢
      obtain rfl : d = c := (List.cons.inj happend).1
      by_cases hslash : d = '/'
      · subst hslash
        obtain ⟨e, text', htext'⟩ := exists_text_of_slash hexpects h
        rw [htext'] at htext
        obtain rfl := (List.cons.inj htext).2
        refine not_opensGap_slash ?_ ?_ _ <;>
          · rintro rfl
            simp [opensGap] at hopens
      · exact not_opensGap_cons (not_isTokenBlank_of_not_opensGap hgap) hslash _

/-- A token that has been scanned is scanned as a word before another text. -/
lemma scannedAs_of_scanToken {context : Context} {c : Char} {cs : List Char}
    (hgap : opensGap (c :: cs) = false) (h : scanToken context c cs = .ok (lexeme, after))
    (hahead : SameAhead after rest)
    (huri : context.expectsUri = true → ∀ d ∈ rest.head?, Text.isBlank d = true) :
    ScannedAs context lexeme.text ⟨lexeme.kind, lexeme.value⟩ rest := by
  obtain ⟨happend, hne⟩ := scanToken_append h
  obtain ⟨d, text, htext⟩ := List.exists_cons_of_ne_nil hne
  rw [htext, List.cons_append] at happend
  obtain ⟨rfl, -⟩ := List.cons.inj happend
  exact ⟨not_opensGap_of_scanToken hgap h huri, d, text, htext, scanToken_ahead h htext hahead huri⟩

end Concerto
