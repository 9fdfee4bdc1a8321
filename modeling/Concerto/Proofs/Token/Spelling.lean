import Concerto.Proofs.Number.NumberText
import Concerto.Proofs.Token.Takes
import Concerto.Proofs.Token.Word

/-!
How words are spelled: what the scanner takes for a name, a symbol, a string, a number, a pattern
or the location of an import, each before a text that does not continue it.
-/

namespace Concerto

/-! ### Gaps -/

/-- A blank or a comment begins here. -/
def opensGap : List Char → Bool
  | '/' :: '/' :: _ => true
  | '/' :: '*' :: _ => true
  | c :: _ => isTokenBlank c
  | [] => false

/-- Before a token there is no gap. -/
lemma spanGap_of_not_opensGap {cs : List Char} (h : opensGap cs = false) :
    spanGap cs = .ok ([], cs) := by
  rw [spanGap.eq_def]
  split <;> simp_all [opensGap]

/-- A gap goes on as long as a blank or a comment begins. -/
lemma not_opensGap_of_spanGap {cs gap rest : List Char} (h : spanGap cs = .ok (gap, rest)) :
    opensGap rest = false := by
  -- only the end of the text and the last case end the gap there
  fun_induction spanGap cs generalizing gap rest with
  | case1 => simp_all [opensGap]
  | case2 cs line gap' rest' hgap =>
      rename_i ih
      simp at h
      obtain ⟨rfl, rfl⟩ := h
      exact ih hgap
  | case3 => simp at h
  | case4 => simp at h
  | case5 cs comment rest₁ hc gap' rest' hgap ih =>
      simp at h
      obtain ⟨rfl, rfl⟩ := h
      exact ih hgap
  | case6 => simp at h
  | case7 c cs _ _ _ gap' rest' hgap ih =>
      simp at h
      obtain ⟨rfl, rfl⟩ := h
      exact ih hgap
  | case8 => simp at h
  | case9 c cs hline hblock hblank =>
      simp at h
      obtain ⟨rfl, rfl⟩ := h
      rw [opensGap.eq_def]
      split <;> simp_all

/-- A character that is no blank and no slash begins no gap. -/
lemma not_opensGap_cons {c : Char} (hblank : isTokenBlank c = false) (hslash : c ≠ '/')
    (cs : List Char) : opensGap (c :: cs) = false := by
  rw [opensGap.eq_def]
  split <;> simp_all

/-- A slash begins a gap only before a slash or a star. -/
lemma not_opensGap_slash {c : Char} (hslash : c ≠ '/') (hstar : c ≠ '*') (cs : List Char) :
    opensGap ('/' :: c :: cs) = false := by
  simp [opensGap, hslash, hstar, isTokenBlank]

/-- A blank begins a gap. -/
lemma not_isTokenBlank_of_not_opensGap {c : Char} {cs : List Char} (h : opensGap (c :: cs) = false) :
    isTokenBlank c = false := by
  rw [opensGap.eq_def] at h
  split at h <;> simp_all

/-- What begins a gap begins one before any text. -/
lemma opensGap_append {cs : List Char} (h : opensGap cs = true) (rest : List Char) :
    opensGap (cs ++ rest) = true := by
  rw [opensGap.eq_def] at h
  split at h
  · rfl
  · rfl
  · next c tail hline hblock =>
      by_cases hslash : c = '/'
      · subst hslash
        exact absurd h (by decide)
      · rw [opensGap.eq_def]
        split <;> simp_all
  · simp at h

/-- Two characters tell whether a gap begins. -/
lemma not_opensGap_append {cs rest : List Char} (hne : cs ≠ []) (h : opensGap cs = false)
    (hrest : ∀ c ∈ rest.head?, c ≠ '/' ∧ c ≠ '*') : opensGap (cs ++ rest) = false := by
  cases cs with
  | nil => exact absurd rfl hne
  | cons c cs =>
      -- a slash needs a look at the character after it, which may be the first of what follows
      by_cases hslash : c = '/'
      · subst hslash
        cases cs with
        | nil =>
            cases rest with
            | nil => exact h
            | cons d rest => exact not_opensGap_slash (hrest d (by simp)).1 (hrest d (by simp)).2 _
        | cons d cs =>
            refine not_opensGap_slash ?_ ?_ _
            · rintro rfl
              simp [opensGap] at h
            · rintro rfl
              simp [opensGap] at h
      · exact not_opensGap_cons (not_isTokenBlank_of_not_opensGap h) hslash _

/-! ### Strings -/

/-- A string literal is read up to its closing quote. -/
lemma spanString_literal (value rest : List Char) :
    spanString '"' (value.flatMap stringLiteralChar ++ '"' :: rest) =
      .ok (value, value.flatMap stringLiteralChar ++ ['"'], rest) := by
  induction value with
  | nil => simp [spanString]
  | cons c cs ih =>
      rw [List.flatMap_cons]
      generalize cs.flatMap stringLiteralChar = text at ih ⊢
      -- five characters are written as an escape, which reads as the character; any other stands
      -- for itself
      unfold stringLiteralChar
      split
      · simp [spanString, unescape?, ih]
      · simp [spanString, unescape?, ih]
      · simp [spanString, unescape?, ih]
      · simp [spanString, unescape?, ih]
      · simp [spanString, unescape?, ih]
      · next hbackslash hquote hline _ _ =>
          rw [List.singleton_append, spanString.eq_def]
          split <;> simp_all

/-- A carriage return is escaped in a string literal. -/
lemma noReturn_quotedString (value : String) : NoReturn (quotedString value).toList := by
  have hchar : ∀ c, NoReturn (stringLiteralChar c) := by
    intro c
    unfold stringLiteralChar
    split <;> simp_all [NoReturn]
  rw [quotedString, String.toList_ofList]
  refine noReturn_append.mpr ⟨noReturn_cons.mpr ⟨by decide, ?_⟩, by decide⟩
  intro c hc
  obtain ⟨d, -, hd⟩ := List.mem_flatMap.mp hc
  exact hchar d c hd

/-! ### Patterns -/

/-- A text may stand between slashes: no slash and no line break is in it but after a backslash,
and no backslash protects what follows it. `escaped` tells whether one protects its beginning. -/
def isPatternBody (escaped : Bool) : List Char → Bool
  | [] => !escaped
  | c :: cs => (escaped || (c ≠ '/' && c ≠ '\n')) && isPatternBody (c = '\\' && !escaped) cs

/-- A pattern becomes such a text once its slashes are escaped: no line break is in it but after
a backslash, and no backslash protects what follows it. -/
def isPatternText (escaped : Bool) : List Char → Bool
  | [] => !escaped
  | c :: cs => (escaped || c ≠ '\n') && isPatternText (c = '\\' && !escaped) cs

/-- The scanner takes such a text up to the slash after it. -/
lemma spanPattern_body {body : List Char} (h : isPatternBody false body = true)
    (rest : List Char) : spanPattern (body ++ '/' :: rest) = some (body, rest) := by
  fun_induction spanPattern body with
  | case1 => simp [spanPattern]
  | case2 => simp [isPatternBody] at h
  | case3 => simp [isPatternBody] at h
  | case4 c cs ih =>
      simp [isPatternBody] at h
      simp [spanPattern, ih h]
  | case5 c cs hline hslash hescape ih =>
      simp only [isPatternBody, Bool.false_or, Bool.and_eq_true, decide_eq_true_eq] at h
      -- a backslash takes the next character with it, and there is one
      have hne : c ≠ '\\' := by
        rintro rfl
        cases cs with
        | nil => simp [isPatternBody] at h
        | cons d ds => exact hescape d ds rfl rfl
      have htail := ih (by simpa [hne] using h.2)
      rw [List.cons_append, spanPattern.eq_def]
      split <;> simp_all

/-- What the scanner takes up to a slash is such a text. -/
lemma isPatternBody_of_spanPattern {cs body rest : List Char}
    (h : spanPattern cs = some (body, rest)) : isPatternBody false body = true := by
  fun_induction spanPattern cs generalizing body with
  | case1 => simp at h
  | case2 => simp at h
  | case3 => simp at h; obtain ⟨rfl, rfl⟩ := h; rfl
  | case4 c cs ih =>
      obtain ⟨p, hp, h⟩ := Option.map_eq_some_iff.mp h
      cases h
      simpa [isPatternBody] using ih hp
  | case5 c cs hline hslash hescape ih =>
      obtain ⟨p, hp, h⟩ := Option.map_eq_some_iff.mp h
      cases h
      have hne : c ≠ '\\' := by
        rintro rfl
        cases cs with
        | nil => simp [spanPattern] at hp
        | cons d ds => exact hescape d ds rfl rfl
      have hbody := ih hp
      simp only [isPatternBody, hne, hbody, decide_false, Bool.false_and, Bool.and_true, Bool.false_or,
        Bool.and_eq_true, decide_eq_true_eq]
      exact ⟨hslash, hline⟩

/-- Escaping the slashes of a pattern makes a text that may stand between slashes, unless a line
break or a backslash prevents it. -/
lemma isPatternBody_escapeSlashesFrom (escaped : Bool) (cs : List Char) :
    isPatternBody escaped (escapeSlashesFrom escaped cs) = isPatternText escaped cs := by
  induction cs generalizing escaped with
  | nil => rfl
  | cons c cs ih =>
      cases escaped with
      | true => simp [escapeSlashesFrom, isPatternBody, isPatternText, ih]
      | false =>
          by_cases hslash : c = '/'
          · subst hslash
            simp [escapeSlashesFrom, isPatternBody, isPatternText, ih]
          · simp [escapeSlashesFrom, isPatternBody, isPatternText, ih, hslash]

/-- Nothing is left to escape in a text that may stand between slashes. -/
lemma escapeSlashesFrom_of_isPatternBody {escaped : Bool} {body : List Char}
    (h : isPatternBody escaped body = true) : escapeSlashesFrom escaped body = body := by
  induction body generalizing escaped with
  | nil => rfl
  | cons c cs ih =>
      simp only [isPatternBody, Bool.and_eq_true] at h
      rw [escapeSlashesFrom, ih h.2]
      cases escaped with
      | true => simp
      | false =>
          have hslash : c ≠ '/' := by
            rintro rfl
            simp at h
          simp [hslash]

/-! ### Numbers -/

/-- A text goes on after a number: its first character, if it has one, does not continue the
number. -/
def EndsNumber (rest : List Char) : Prop :=
  ∀ c ∈ rest.head?, Text.isDigit c = false ∧ c ≠ '.' ∧ c ≠ 'e' ∧ c ≠ 'E'

lemma isDigit_of_isDigit {c : Char} (h : c.isDigit = true) : Text.isDigit c = true := by
  simp [Text.isDigit, Text.isDecimalDigit, decimalDigit?_of_isDigit h]

/-- Characters of a class are taken up to one that is not in it. -/
lemma takeWhile_append_of_head {p : Char → Bool} (cs rest : List Char) (hcs : ∀ c ∈ cs, p c = true)
    (hrest : ∀ c ∈ rest.head?, p c = false) :
    (cs ++ rest).takeWhile p = cs ∧ (cs ++ rest).dropWhile p = rest := by
  rw [List.takeWhile_append_of_pos hcs, List.dropWhile_append_of_pos hcs]
  cases rest with
  | nil => simp
  | cons c rest => simp [hrest c (by simp)]

/-- What does not continue a number is no power of ten. -/
lemma spanPower_of_endsNumber {rest : List Char} (h : EndsNumber rest) :
    spanPower rest = ([], rest) := by
  cases rest with
  | nil => rfl
  | cons e rest =>
      obtain ⟨-, -, he, hE⟩ := h e (by simp)
      cases rest with
      | nil => rfl
      | cons s rest => cases rest <;> simp [spanPower, he, hE]

namespace NumberText

variable (t : NumberText)

/-- The power of ten is taken. -/
lemma spanPower_powerChars {rest : List Char} (h : EndsNumber rest) :
    spanPower (t.powerChars ++ rest) = (t.powerChars, rest) := by
  cases hpower : t.power with
  | none => simpa [powerChars, hpower] using spanPower_of_endsNumber h
  | some p =>
      obtain ⟨negative, digits⟩ := p
      obtain ⟨hne, hdigits⟩ := t.power_digits _ hpower
      obtain ⟨d, ds, rfl⟩ := List.exists_cons_of_ne_nil hne
      have hd := isDigit_of_isDigit (hdigits d (by simp))
      obtain ⟨htake, hdrop⟩ := takeWhile_append_of_head (p := Text.isDigit) _ _
        (fun c hc => isDigit_of_isDigit (hdigits c (List.mem_cons_of_mem d hc))) fun c hc => (h c hc).1
      have hsign : Text.isDigit '-' = false ∧ Text.isDigit '+' = false := by decide
      cases negative <;> simp [powerChars, hpower, spanPower, hd, htake, hdrop, hsign]

/-- The point and the digits after it are taken. -/
lemma spanPoint_pointChars {rest : List Char} (h : EndsNumber rest) :
    spanPoint (t.pointChars ++ (t.powerChars ++ rest)) = (t.pointChars, t.powerChars ++ rest) := by
  -- after the digits of the fraction comes the power or what ends the number: no digit and no point
  have hhead : ∀ c ∈ (t.powerChars ++ rest).head?, Text.isDigit c = false ∧ c ≠ '.' := by
    intro c hc
    rcases List.head?_append.symm.trans hc |> Option.or_eq_some_iff.mp with hc | ⟨-, hc⟩
    · rw [t.head?_powerChars c hc]
      decide
    · exact ⟨(h c hc).1, (h c hc).2.1⟩
  generalize t.powerChars ++ rest = after at hhead
  -- without a fraction there is no point either
  by_cases hfraction : t.fraction = []
  · rw [pointChars, if_pos hfraction, List.nil_append]
    rw [spanPoint.eq_def]
    split
    · exact absurd rfl (hhead '.' (by simp)).2
    · rfl
  · obtain ⟨d, ds, hds⟩ := List.exists_cons_of_ne_nil hfraction
    have hdigits := t.fraction_digits
    rw [hds] at hdigits
    have hd := isDigit_of_isDigit (hdigits d (by simp))
    obtain ⟨htake, hdrop⟩ := takeWhile_append_of_head (p := Text.isDigit) _ _
      (fun c hc => isDigit_of_isDigit (hdigits c (List.mem_cons_of_mem d hc)))
      fun c hc => (hhead c hc).1
    simp [pointChars, hds, spanPoint, hd, htake, hdrop]

/-- The number is taken, part by part. -/
lemma spanUnsigned_unsignedChars {rest : List Char} (h : EndsNumber rest) :
    spanUnsigned (t.unsignedChars ++ rest) = (t.whole, t.pointChars, t.powerChars, rest) := by
  have hhead : ∀ c ∈ (t.pointChars ++ (t.powerChars ++ rest)).head?, Text.isDigit c = false := by
    intro c hc
    by_cases hfraction : t.fraction = []
    · rw [pointChars, if_pos hfraction, List.nil_append, List.head?_append] at hc
      rcases Option.or_eq_some_iff.mp hc with hc | ⟨-, hc⟩
      · rw [t.head?_powerChars c hc]
        decide
      · exact (h c hc).1
    · rw [pointChars, if_neg hfraction] at hc
      rw [← Option.some.inj hc]
      decide
  obtain ⟨htake, hdrop⟩ := takeWhile_append_of_head (p := Text.isDigit) _ _
    (fun c hc => isDigit_of_isDigit (t.whole_digits c hc)) hhead
  simp only [spanUnsigned, unsignedChars, List.append_assoc, htake, hdrop,
    t.spanPoint_pointChars h, t.spanPower_powerChars h]

/-- The kind of token that a number is. -/
def kind : TokenKind := if t.fraction = [] ∧ t.power = none then .integer else .float

/-- A number is scanned with its sign. -/
lemma scanNumber_unsignedChars {rest : List Char} (h : EndsNumber rest) (sign : List Char) :
    scanNumber sign (t.unsignedChars ++ rest) = (.verbatim t.kind (sign ++ t.unsignedChars), rest) := by
  have hpoint : t.pointChars.isEmpty = decide (t.fraction = []) := by
    by_cases hfraction : t.fraction = [] <;> simp [pointChars, hfraction]
  have hpower : t.powerChars.isEmpty = decide (t.power = none) := by
    cases hpower : t.power <;> simp [powerChars, hpower]
  rw [scanNumber, t.spanUnsigned_unsignedChars h]
  simp only [hpoint, hpower, kind, unsignedChars, Bool.and_eq_true, decide_eq_true_eq,
    List.append_assoc]

end NumberText

/-! ### Words -/

/-- In a context, a text before `rest` is scanned as a word. -/
def ScannedAs (context : Context) (text : List Char) (word : Word) (rest : List Char) : Prop :=
  opensGap (text ++ rest) = false ∧ ∃ c cs, text = c :: cs ∧
    scanToken context c (cs ++ rest) = .ok (⟨word.kind, word.value, text⟩, rest)

variable {context : Context} {rest : List Char}

/-- A symbol of one character. -/
lemma scannedAs_symbol {c : Char} {s : Symbol} (hs : Symbol.ofChar? c = some s)
    (hcontext : context.expectsUri = false) : ScannedAs context [c] (.symbol s) rest := by
  have hmem := ofChar?_ne_none (by rw [hs]; simp : Symbol.ofChar? c ≠ none)
  have hslash : c ≠ '/' := by
    rintro rfl
    simp at hmem
  have hblank : isTokenBlank c = false := by
    simp only [List.mem_cons, List.not_mem_nil, or_false] at hmem
    rcases hmem with rfl | rfl | rfl | rfl | rfl | rfl | rfl | rfl | rfl | rfl | rfl <;> decide
  refine ⟨not_opensGap_cons hblank hslash _, c, [], rfl, ?_⟩
  rw [Word.symbol, Symbol.text_of_ofChar? hs]
  exact scanToken_eq_ok_iff.mpr (.symbol hcontext hs)

/-- The arrow. -/
lemma scannedAs_arrow (hcontext : context.expectsUri = false) :
    ScannedAs context ['-', '-', '>'] (.symbol .arrow) rest := by
  exact ⟨not_opensGap_cons (by decide) (by decide) _, '-', ['-', '>'], rfl,
    scanToken_eq_ok_iff.mpr (.arrow hcontext)⟩

/-- A name or a keyword. -/
lemma scannedAs_name {w : String} (hw : unitsFormName (NameUnit.ofChars w.toList) = true)
    (hrest : EndsName rest) (hcontext : context.expectsUri = false) :
    ScannedAs context w.toList (.name w) rest := by
  obtain ⟨c, cs, hcs, hstart⟩ := exists_of_unitsFormName hw
  have hspan := spanWord?_append_of_unitsFormName hw hrest
  obtain ⟨hblank, hslash, -⟩ := startsWord hstart
  rw [ScannedAs, hcs]
  rw [hcs] at hspan
  refine ⟨not_opensGap_cons hblank hslash _, c, cs, rfl, ?_⟩
  have hlexeme : Lexeme.ofWord (c :: cs) = ⟨(Word.name w).kind, (Word.name w).value, c :: cs⟩ := by
    rw [← hcs, Lexeme.ofWord, String.ofList_toList, Word.name]
    cases hkeyword : Keyword.ofText? w <;> simp [Lexeme.verbatim]
  rw [List.cons_append] at hspan
  rw [← hlexeme]
  exact scanToken_eq_ok_iff.mpr (.word hcontext hspan)

/-- A string literal. -/
lemma scannedAs_string (value : String) (hcontext : context.expectsUri = false) :
    ScannedAs context (quotedString value).toList (.string value) rest := by
  refine ⟨?_, '"', value.toList.flatMap stringLiteralChar ++ ['"'], ?_, ?_⟩
  · simp only [quotedString, String.toList_ofList, List.cons_append]
    exact not_opensGap_cons (by decide) (by decide) _
  · simp [quotedString]
  · have hspan := spanString_literal value.toList rest
    have htakes := scanToken_eq_ok_iff.mpr (.string hcontext (.inl rfl) hspan)
    simpa [quotedString, Word.string] using htakes

/-- A number. -/
lemma scannedAs_number (t : NumberText) (hrest : EndsNumber rest)
    (hcontext : context.expectsUri = false) :
    ScannedAs context t.chars ⟨t.kind, String.ofList t.chars⟩ rest := by
  obtain ⟨c, cs, hc, hdigit⟩ := t.exists_whole
  have htake := t.scanNumber_unsignedChars hrest
  have hunsigned : t.unsignedChars = c :: (cs ++ (t.pointChars ++ t.powerChars)) := by
    simp [NumberText.unsignedChars, hc]
  rw [hunsigned, List.cons_append] at htake
  have hdigit := isDigit_of_isDigit hdigit
  obtain ⟨hblank, hslash, -⟩ := startsNumber hdigit
  -- a dash before the first digit is taken with the number
  cases hnegative : t.negative with
  | true =>
      have hchars : t.chars = '-' :: c :: (cs ++ (t.pointChars ++ t.powerChars)) := by
        simp [NumberText.chars, NumberText.signChars, hnegative, hunsigned]
      refine ⟨?_, '-', c :: (cs ++ (t.pointChars ++ t.powerChars)), hchars, ?_⟩
      · rw [hchars, List.cons_append]
        exact not_opensGap_cons (by decide) (by decide) _
      · rw [List.cons_append, hchars]
        exact (scanToken_eq_ok_iff.mpr (.negative hcontext hdigit)).trans
          (congrArg Except.ok (htake ['-']))
  | false =>
      have hchars : t.chars = c :: (cs ++ (t.pointChars ++ t.powerChars)) := by
        simp [NumberText.chars, NumberText.signChars, hnegative, hunsigned]
      refine ⟨?_, c, cs ++ (t.pointChars ++ t.powerChars), hchars, ?_⟩
      · rw [hchars, List.cons_append]
        exact not_opensGap_cons hblank hslash _
      · rw [hchars]
        exact (scanToken_eq_ok_iff.mpr (.number hcontext hdigit)).trans
          (congrArg Except.ok (htake []))

/-- A pattern with its flags, where one is expected. -/
lemma scannedAs_pattern {body flags : List Char} (hne : body ≠ []) (hstar : body.head? ≠ some '*')
    (hbody : isPatternBody false body = true) (hflags : ∀ c ∈ flags, Text.isLetter c = true)
    (hrest : ∀ c ∈ rest.head?, Text.isLetter c = false) (hcontext : context.expectsUri = false)
    (hpattern : context.expectsPattern = true) :
    ScannedAs context ('/' :: (body ++ '/' :: flags))
      ⟨.regex, String.ofList (body ++ '/' :: flags)⟩ rest := by
  obtain ⟨c, cs, rfl⟩ := List.exists_cons_of_ne_nil hne
  obtain ⟨htake, hdrop⟩ := takeWhile_append_of_head _ _ hflags hrest
  have hspan := spanPattern_body hbody (flags ++ rest)
  refine ⟨?_, '/', c :: cs ++ '/' :: flags, rfl, ?_⟩
  -- as it begins with no slash and no star, the text opens no comment
  · have hslash : c ≠ '/' := by
      rintro rfl
      simp [isPatternBody] at hbody
    have hstar : c ≠ '*' := by simpa using hstar
    exact not_opensGap_slash hslash hstar _
  · simp only [List.append_assoc, List.cons_append] at hspan ⊢
    simpa [htake, hdrop] using scanToken_eq_ok_iff.mpr (.pattern hcontext hpattern hspan)

/-- A text may be the location of an import: it has no blanks and begins no gap. -/
def IsLocation (uri : String) : Prop :=
  uri ≠ "" ∧ (∀ c ∈ uri.toList, Text.isBlank c = false) ∧ opensGap uri.toList = false

/-- A location, where one is expected. -/
lemma scannedAs_uri {uri : String} (h : IsLocation uri)
    (hrest : ∀ c ∈ rest.head?, Text.isBlank c = true) (hcontext : context.expectsUri = true) :
    ScannedAs context uri.toList (.uri uri) rest := by
  obtain ⟨hne, hblank, hgap⟩ := h
  have hlist : uri.toList ≠ [] := by simpa using hne
  obtain ⟨c, cs, hcs⟩ := List.exists_cons_of_ne_nil hlist
  rw [hcs] at hblank hgap
  have hc := hblank c (by simp)
  obtain ⟨htake, hdrop⟩ := takeWhile_append_of_head (p := fun c => !Text.isBlank c) cs rest
    (fun d hd => by simp [hblank d (List.mem_cons_of_mem c hd)])
    fun d hd => by simp [hrest d hd]
  rw [ScannedAs, hcs]
  refine ⟨?_, c, cs, rfl, ?_⟩
  · refine not_opensGap_append (by simp) hgap fun d hd => ?_
    have := hrest d hd
    constructor <;>
      · rintro rfl
        revert this
        decide
  · have huri : uri = String.ofList (c :: cs) := by rw [← hcs, String.ofList_toList]
    have htakes : scanToken context c (cs ++ rest) = _ :=
      scanToken_eq_ok_iff.mpr (.location hcontext hc)
    rwa [htake, hdrop, Lexeme.verbatim, ← huri] at htakes

end Concerto
