import Concerto.Proofs.Token.Name

/-!
What the scanner takes for one token.

* `Takes`: the kinds of tokens, each with what the scanner has seen when it takes one, with the token
  and with the text after it;
* `scanToken_eq_ok_iff`: these are all tokens that are scanned, and each of them is;
* `ofChar?_ne_none`, `startsWord`, `startsNumber`: the characters that symbols, words and numbers begin
  with, none of which begins another token but the location of an import.
-/

namespace Concerto

variable {context : Context} {c : Char} {cs rest : List Char} {lexeme : Lexeme}

/-! ### First characters -/

/-- The characters of symbols. -/
lemma ofChar?_ne_none (h : Symbol.ofChar? c ≠ none) :
    c ∈ ['\x7b', '\x7d', '[', ']', '(', ')', ',', '.', '=', '@', '*'] := by
  unfold Symbol.ofChar? at h
  split at h <;> simp_all

/-- What is no delimiter begins no gap, symbol or string. -/
lemma ne_of_notMem_delimiters (h : c ∉ delimiters) :
    isTokenBlank c = false ∧ c ≠ '/' ∧ Symbol.ofChar? c = none ∧ c ≠ '-' ∧ c ≠ '"' ∧ c ≠ '\'' := by
  have hsymbol : Symbol.ofChar? c = none := by
    by_contra hs
    have hsub : ['\x7b', '\x7d', '[', ']', '(', ')', ',', '.', '=', '@', '*'] ⊆ delimiters := by
      simp [delimiters]
    exact h (hsub (ofChar?_ne_none hs))
  simp only [delimiters, List.mem_cons, not_or] at h
  refine ⟨?_, by tauto, hsymbol, by tauto, by tauto, by tauto⟩
  simp only [isTokenBlank, Bool.or_eq_false_iff, decide_eq_false_iff_not]
  tauto

/-- The first character of a word begins no other token. -/
lemma startsWord (h : c = '\\' ∨ isIdentifierStart c = true) :
    isTokenBlank c = false ∧ c ≠ '/' ∧ Symbol.ofChar? c = none ∧ c ≠ '-' ∧ c ≠ '"' ∧ c ≠ '\'' ∧
      Text.isDigit c = false := by
  rcases h with rfl | h
  · decide
  · have hdelimiter : c ∉ delimiters := by
      intro hc
      rw [not_isIdentifierStart (not_isIdentifierPart_of_delimiter hc)] at h
      contradiction
    obtain ⟨hblank, hslash, hsymbol, hdash, hdouble, hsingle⟩ := ne_of_notMem_delimiters hdelimiter
    exact ⟨hblank, hslash, hsymbol, hdash, hdouble, hsingle, not_isDigit_of_isIdentifierStart h⟩

/-- A word begins with a backslash or with a character that may begin a name. -/
lemma starts_of_spanWord? {word : List Char} (h : spanWord? (c :: cs) = some (word, rest)) :
    c = '\\' ∨ isIdentifierStart c = true := by
  obtain ⟨d, ds, rfl, hstart⟩ := exists_of_unitsFormName (unitsFormName_of_spanWord? h)
  obtain rfl : d = c := (List.cons.inj (spanWord?_append h).1).1
  exact hstart

/-- A digit begins a number and no other token. -/
lemma startsNumber (h : Text.isDigit c = true) :
    isTokenBlank c = false ∧ c ≠ '/' ∧ Symbol.ofChar? c = none ∧ c ≠ '-' ∧ c ≠ '"' ∧ c ≠ '\'' := by
  refine ne_of_notMem_delimiters fun hc => ?_
  rw [(not_isIdentifierPart_of_mem (List.mem_cons_of_mem _ hc)).2] at h
  contradiction

/-- A digit after a dash begins a negative number. -/
lemma scanDash_digit {d : Char} (hd : Text.isDigit d = true) (ds : List Char) :
    scanDash (d :: ds) = .ok (scanNumber ['-'] (d :: ds)) := by
  have hne : d ≠ '-' := (startsNumber hd).2.2.2.1
  rw [scanDash.eq_def]
  split <;> simp_all

/-! ### Tokens -/

/-- In a context, the scanner takes a token at the character `c` before `cs`, and a text is left. -/
inductive Takes (context : Context) : Char → List Char → Lexeme → List Char → Prop
  | location {c : Char} {cs : List Char} (huri : context.expectsUri = true)
      (hc : Text.isBlank c = false) :
      Takes context c cs (.verbatim .uri (c :: cs.takeWhile (!Text.isBlank ·)))
        (cs.dropWhile (!Text.isBlank ·))
  | pattern {cs body after : List Char} (huri : context.expectsUri = false)
      (hpattern : context.expectsPattern = true) (hspan : spanPattern cs = some (body, after)) :
      Takes context '/' cs
        ⟨.regex, String.ofList (body ++ '/' :: after.takeWhile Text.isLetter),
          '/' :: (body ++ '/' :: after.takeWhile Text.isLetter)⟩
        (after.dropWhile Text.isLetter)
  | symbol {c : Char} {cs : List Char} {s : Symbol} (huri : context.expectsUri = false)
      (hs : Symbol.ofChar? c = some s) : Takes context c cs (.verbatim (.symbol s) [c]) cs
  | arrow {rest : List Char} (huri : context.expectsUri = false) :
      Takes context '-' ('-' :: '>' :: rest) (.verbatim (.symbol .arrow) ['-', '-', '>']) rest
  | negative {d : Char} {ds : List Char} (huri : context.expectsUri = false)
      (hd : Text.isDigit d = true) :
      Takes context '-' (d :: ds) (scanNumber ['-'] (d :: ds)).1 (scanNumber ['-'] (d :: ds)).2
  | string {quote : Char} {cs value text rest : List Char} (huri : context.expectsUri = false)
      (hquote : quote = '"' ∨ quote = '\'')
      (hspan : spanString quote cs = .ok (value, text, rest)) :
      Takes context quote cs ⟨.string, String.ofList value, quote :: text⟩ rest
  | number {c : Char} {cs : List Char} (huri : context.expectsUri = false)
      (hc : Text.isDigit c = true) :
      Takes context c cs (scanNumber [] (c :: cs)).1 (scanNumber [] (c :: cs)).2
  | word {c : Char} {cs word rest : List Char} (huri : context.expectsUri = false)
      (hword : spanWord? (c :: cs) = some (word, rest)) : Takes context c cs (.ofWord word) rest

/-- What is scanned after a dash. -/
lemma takes_of_scanDash (huri : context.expectsUri = false) (h : scanDash cs = .ok (lexeme, rest)) :
    Takes context '-' cs lexeme rest := by
  unfold scanDash at h
  split at h
  · cases h
    exact .arrow huri
  · next d ds _ =>
      split at h
      · next hd =>
          have htakes : Takes context '-' (d :: ds) _ _ := .negative huri hd
          rwa [Except.ok.inj h] at htakes
      · cases h
  · cases h

lemma takes_of_scanString {quote : Char} (huri : context.expectsUri = false)
    (hquote : quote = '"' ∨ quote = '\'') (h : scanString quote cs = .ok (lexeme, rest)) :
    Takes context quote cs lexeme rest := by
  unfold scanString at h
  split at h
  · cases h
  · cases h
  · next hspan =>
      cases h
      exact .string huri hquote hspan

/-- The scanner takes each token that is scanned. -/
lemma takes_of_scanToken (h : scanToken context c cs = .ok (lexeme, rest)) :
    Takes context c cs lexeme rest := by
  unfold scanToken at h
  split at h
  · next huri =>
      unfold scanUri at h
      split at h
      · cases h
      · next hc =>
          cases h
          exact .location huri (Bool.eq_false_iff.mpr hc)
  next huri =>
  have huri := Bool.eq_false_iff.mpr huri
  split at h
  · next hslash =>
      obtain ⟨rfl, hpattern⟩ : c = '/' ∧ context.expectsPattern = true := by simpa using hslash
      unfold scanPattern at h
      split at h
      · cases h
      · next hspan =>
          cases h
          exact .pattern huri hpattern hspan
  split at h
  · next hs =>
      cases h
      exact .symbol huri hs
  split at h
  · next hdash =>
      subst hdash
      exact takes_of_scanDash huri h
  split at h
  · next hquote => exact takes_of_scanString huri (by simpa using hquote) h
  split at h
  · next hc =>
      have htakes : Takes context c cs _ _ := .number huri hc
      rwa [Except.ok.inj h] at htakes
  split at h
  · next hword =>
      cases h
      exact .word huri hword
  · cases h

/-- What the scanner takes is scanned: its first character begins no token of another kind. -/
lemma scanToken_of_takes (h : Takes context c cs lexeme rest) :
    scanToken context c cs = .ok (lexeme, rest) := by
  cases h with
  | location huri hc => simp [scanToken, huri, scanUri, hc]
  | pattern huri hpattern hspan => simp [scanToken, huri, hpattern, scanPattern, hspan]
  | symbol huri hs =>
      have hslash : c ≠ '/' := by
        rintro rfl
        cases hs
      simp [scanToken, huri, hslash, hs]
  | arrow huri => simp [scanToken, huri, Symbol.ofChar?, scanDash]
  | negative huri hd => simp [scanToken, huri, Symbol.ofChar?, scanDash_digit hd]
  | string huri hquote hspan =>
      rcases hquote with rfl | rfl <;>
        simp [scanToken, huri, Symbol.ofChar?, scanString, hspan]
  | number huri hc =>
      obtain ⟨-, hslash, hsymbol, hdash, hdouble, hsingle⟩ := startsNumber hc
      simp [scanToken, huri, hslash, hsymbol, hdash, hdouble, hsingle, hc]
  | word huri hword =>
      obtain ⟨-, hslash, hsymbol, hdash, hdouble, hsingle, hdigit⟩ :=
        startsWord (starts_of_spanWord? hword)
      simp [scanToken, huri, hslash, hsymbol, hdash, hdouble, hsingle, hdigit, hword]

/-- A token is scanned where, and only where, the scanner takes it. -/
lemma scanToken_eq_ok_iff :
    scanToken context c cs = .ok (lexeme, rest) ↔ Takes context c cs lexeme rest :=
  ⟨takes_of_scanToken, scanToken_of_takes⟩

end Concerto
