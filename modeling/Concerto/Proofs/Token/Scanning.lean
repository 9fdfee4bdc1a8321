import Concerto.Proofs.Token.Spelling

/-!
Scanning a text word by word.

* `Scans`: from the beginning of a text, some words are scanned and a rest is left, and the text has no
  carriage return but in the patterns among them and in the rest;
* `Scans.trans`: words are put one after another;
* `Scans.scanTokens_eq`: the tokens of a text that is scanned to its end;
* `isScanned_of_scanTokens`: conversely, what is known of the tokens of any text;
* `tokenize_eq_ok`, `Scans.exists_tokenize`, `isScanned_of_tokenize`: the same of the tokens with the end
  of the text.
-/

namespace Concerto

/-! ### Single steps -/

/-- Tokens put in front of those that are scanned from a place on. -/
def prepend (tokens : List Token) (scanned : List Token × Place) : List Token × Place :=
  (tokens ++ scanned.1, scanned.2)

/-- One step of the scanner: a gap, and a token if the text does not end with it. -/
lemma scanTokens_step (context : Context) (place : Place) (cs : List Char) :
    scanTokens context place cs =
      match spanGap cs with
      | .error (fault, before) => .error ⟨fault, place.after before⟩
      | .ok (gap, []) => .ok ([], place.after gap)
      | .ok (gap, c :: cs') =>
        match scanToken context c cs' with
        | .error (fault, before) => .error ⟨fault, (place.after gap).after before⟩
        | .ok (lexeme, rest) =>
          (scanTokens (context.push lexeme.kind) ((place.after gap).after lexeme.text) rest).map
            (prepend [⟨lexeme.kind, lexeme.value, place.after gap⟩]) := by
  rw [scanTokens.eq_def]
  split
  · next hgap => simp [hgap]
  · next hgap => simp [hgap]
  · next hgap =>
      split
      · next hscan => simp [hgap, hscan]
      · next hscan =>
          simp only [hgap, hscan]
          split <;> simp_all [prepend, Except.map]

/-- A text that is empty has no tokens. -/
lemma scanTokens_nil (context : Context) (place : Place) :
    scanTokens context place [] = .ok ([], place) := by
  rw [scanTokens_step, spanGap]
  rfl

/-- A gap begins with a blank and goes on after it. -/
lemma spanGap_blank {c : Char} (hc : isTokenBlank c = true) (cs : List Char) :
    spanGap (c :: cs) =
      match spanGap cs with
      | .ok (gap, rest) => .ok (c :: gap, rest)
      | .error (fault, before) => .error (fault, c :: before) := by
  -- a blank is no slash, so the cases of comments do not apply
  have hne : c ≠ '/' := by
    rintro rfl
    revert hc
    decide
  rw [spanGap.eq_def]
  split
  · next hcs => exact absurd hcs (List.cons_ne_nil c cs)
  · next hcs => exact absurd (List.cons.inj hcs).1 hne
  · next hcs => exact absurd (List.cons.inj hcs).1 hne
  · next hcs =>
      obtain ⟨rfl, rfl⟩ := List.cons.inj hcs
      exact if_pos hc

/-- A blank is skipped. -/
lemma scanTokens_blank (context : Context) (place : Place) {c : Char} (hc : isTokenBlank c = true)
    (cs : List Char) : scanTokens context place (c :: cs) = scanTokens context (place.next c) cs := by
  rw [scanTokens_step context place, scanTokens_step context (place.next c), spanGap_blank hc]
  cases spanGap cs with
  | error fault => rfl
  | ok split =>
      obtain ⟨gap, rest⟩ := split
      cases rest <;> rfl

/-- A word is scanned, and the scanner goes on after it. -/
lemma scanTokens_scannedAs {context : Context} {text rest : List Char} {word : Word}
    (h : ScannedAs context text word rest) (place : Place) :
    scanTokens context place (text ++ rest) =
      (scanTokens (context.push word.kind) (place.after text) rest).map
        (prepend [⟨word.kind, word.value, place⟩]) := by
  obtain ⟨hgap, c, cs, rfl, hscan⟩ := h
  rw [scanTokens_step, spanGap_of_not_opensGap hgap]
  simp only [List.cons_append, hscan, Place.after_nil]

/-! ### Several words -/

/-- After some more words. -/
def Context.pushAll (context : Context) (words : List Word) : Context :=
  words.foldl (fun c w => c.push w.kind) context

/-- If some words may stand where they do, the mode is that of the context after them. -/
lemma Context.mode_pushAll {context : Context} {words : List Word} {mode : ImportMode}
    (h : context.mode.run (Word.kinds words) = some mode) : (context.pushAll words).mode = mode := by
  induction words generalizing context with
  | nil => exact Option.some.inj h
  | cons w words ih =>
      simp only [Word.kinds_cons, ImportMode.run, Option.ite_none_right_eq_some,
        ← ImportMode.mode_push] at h
      exact ih h.2

/-- In a context, from the beginning of `text`, some words are scanned and `rest` is left. -/
def ScansIn (context : Context) (text : List Char) (words : List Word) (rest : List Char) : Prop :=
  ∀ place : Place, ∃ (place' : Place) (tokens : List Token), tokens.map Token.word = words ∧
    scanTokens context place text =
      (scanTokens (context.pushAll words) place' rest).map (prepend tokens)

namespace ScansIn

variable {context : Context} {text middle rest : List Char} {words words' : List Word}

/-- No words. -/
lemma refl (text : List Char) : ScansIn context text [] text := by
  refine fun place => ⟨place, [], rfl, ?_⟩
  rw [Context.pushAll, List.foldl_nil]
  cases scanTokens context place text <;> rfl

/-- Words put one after another. -/
lemma trans (h : ScansIn context text words middle)
    (h' : ScansIn (context.pushAll words) middle words' rest) :
    ScansIn context text (words ++ words') rest := by
  intro place
  obtain ⟨place₁, tokens, hwords, heq⟩ := h place
  obtain ⟨place₂, tokens', hwords', heq'⟩ := h' place₁
  refine ⟨place₂, tokens ++ tokens', by simp [hwords, hwords'], ?_⟩
  rw [heq, heq', Context.pushAll, Context.pushAll, Context.pushAll, List.foldl_append]
  cases scanTokens _ place₂ rest <;> simp [Except.map, prepend]

/-- A single word. -/
lemma word {w : Word} (h : ScannedAs context text w rest) : ScansIn context (text ++ rest) [w] rest :=
  fun place => ⟨place.after text, [⟨w.kind, w.value, place⟩], rfl, scanTokens_scannedAs h place⟩

/-- A blank before words. -/
lemma blank {c : Char} (hc : isTokenBlank c = true) (h : ScansIn context text words rest) :
    ScansIn context (c :: text) words rest := by
  intro place
  rw [scanTokens_blank context place hc]
  exact h (place.next c)

/-- The tokens of a text that is scanned to its end. -/
lemma scanTokens_eq (h : ScansIn context text words []) (place : Place) :
    ∃ tokens stop, tokens.map Token.word = words ∧
      scanTokens context place text = .ok (tokens, stop) := by
  obtain ⟨stop, tokens, hwords, heq⟩ := h place
  refine ⟨tokens, stop, hwords, ?_⟩
  rw [heq, scanTokens_nil]
  simp [Except.map, prepend]

end ScansIn

/-- No pattern among the words has a carriage return. -/
def NoReturnPatterns (words : List Word) : Prop :=
  ∀ w ∈ words, w.kind = .regex → NoReturn w.value.toList

/-- Wherever some words may stand, they are scanned from the beginning of `text` and `rest` is
left. Unless this is `sure`, the scanner may also fail. The text has no carriage return but in
patterns. -/
structure Scans (sure : Prop) (text : List Char) (words : List Word) (rest : List Char) : Prop where
  scansIn : ∀ context : Context, (context.mode.run (Word.kinds words)).isSome →
    ScansIn context text words rest ∨ ¬ sure ∧ ∀ place, ∃ e, scanTokens context place text = .error e
  noReturn : NoReturnPatterns words → NoReturn rest → NoReturn text

/-- Outside of what `from` announces, only the words of other kinds than a location may stand. -/
lemma expectsUri_of_admits {context : Context} {kind : TokenKind} (hkind : kind ≠ .uri)
    (h : context.mode.admits kind = true) : context.expectsUri = false := by
  rw [ImportMode.admits_iff] at h
  exact Bool.eq_false_iff.mpr fun hc => hkind (h.mp hc)

namespace Scans

variable {sure : Prop} {text middle rest : List Char} {words words' : List Word}

/-- No words. -/
lemma refl (text : List Char) : Scans sure text [] text :=
  ⟨fun _ _ => Or.inl (.refl text), fun _ => id⟩

/-- Words put one after another. -/
lemma trans (h : Scans sure text words middle) (h' : Scans sure middle words' rest) :
    Scans sure text (words ++ words') rest where
  scansIn := by
    intro context hmode
    -- the first words lead to a mode that admits the others
    obtain ⟨mode, hmode⟩ := Option.isSome_iff_exists.mp hmode
    rw [Word.kinds_append, ImportMode.run_append] at hmode
    obtain ⟨mode₁, hmode₁, hmode⟩ := Option.bind_eq_some_iff.mp hmode
    rw [← Context.mode_pushAll hmode₁] at hmode
    rcases h.scansIn context (by rw [hmode₁]; rfl) with hscan | hfail
    · rcases h'.scansIn (context.pushAll words) (by rw [hmode]; rfl) with hscan' | ⟨hsure, hfail⟩
      · exact Or.inl (hscan.trans hscan')
      · refine Or.inr ⟨hsure, fun place => ?_⟩
        obtain ⟨place', tokens, -, heq⟩ := hscan place
        obtain ⟨e, he⟩ := hfail place'
        exact ⟨e, by rw [heq, he]; rfl⟩
    · exact Or.inr hfail
  noReturn hwords hrest := by
    obtain ⟨hfirst, hsecond⟩ := List.forall_mem_append.mp hwords
    exact h.noReturn hfirst (h'.noReturn hsecond hrest)

/-- A blank before words. -/
lemma blank {c : Char} (hc : isTokenBlank c = true) (hreturn : c ≠ '\r')
    (h : Scans sure text words rest) : Scans sure (c :: text) words rest where
  scansIn := by
    intro context hmode
    rcases h.scansIn context hmode with hscan | ⟨hsure, hfail⟩
    · exact Or.inl (hscan.blank hc)
    · refine Or.inr ⟨hsure, fun place => ?_⟩
      rw [scanTokens_blank context place hc]
      exact hfail (place.next c)
  noReturn hwords hrest := noReturn_cons.mpr ⟨hreturn, h.noReturn hwords hrest⟩

/-- A single word that is no location. -/
lemma word {w : Word} (hkind : w.kind ≠ .uri) (hreturn : NoReturn text)
    (h : ∀ context : Context, context.expectsUri = false → ScannedAs context text w rest) :
    Scans sure (text ++ rest) [w] rest where
  scansIn := by
    intro context hmode
    simp only [Word.kinds_cons, Word.kinds_nil, ImportMode.run, Option.isSome_ite] at hmode
    exact Or.inl (.word (h context (expectsUri_of_admits hkind hmode)))
  noReturn _ hrest := noReturn_append.mpr ⟨hreturn, hrest⟩

/-- A name or a keyword. -/
lemma name {w : String} (hw : unitsFormName (NameUnit.ofChars w.toList) = true)
    (hrest : EndsName rest) : Scans sure (w.toList ++ rest) [.name w] rest := by
  refine word ?_ ?_ fun context hcontext => scannedAs_name hw hrest hcontext
  · unfold Word.name
    split <;> simp
  · rintro c hc rfl
    exact not_mem_of_unitsFormName hw (by simp [delimiters]) hc

/-- The location of an import. -/
lemma uri {location : String} (h : IsLocation location)
    (hrest : ∀ c ∈ rest.head?, Text.isBlank c = true) :
    Scans sure (location.toList ++ rest) [.uri location] rest where
  scansIn := by
    intro context hmode
    simp only [Word.kinds_cons, Word.kinds_nil, ImportMode.run, Option.isSome_ite,
      ImportMode.admits_iff, Word.uri_kind] at hmode
    exact Or.inl (.word (scannedAs_uri h hrest (hmode.mpr trivial)))
  noReturn _ hreturn := by
    refine noReturn_append.mpr ⟨?_, hreturn⟩
    rintro c hc rfl
    exact absurd (h.2.1 '\r' hc) (by decide)

/-- A pattern with its flags, after the words that announce it. -/
lemma pattern {body flags : List Char} (hne : body ≠ []) (hstar : body.head? ≠ some '*')
    (hbody : isPatternBody false body = true) (hflags : ∀ c ∈ flags, Text.isLetter c = true)
    (hrest : ∀ c ∈ rest.head?, Text.isLetter c = false) :
    Scans sure ("regex".toList ++ (['='] ++ ('/' :: (body ++ '/' :: flags) ++ rest)))
      [.keyword .regexKw, .symbol .equals, ⟨.regex, String.ofList (body ++ '/' :: flags)⟩]
      rest where
  scansIn := by
    intro context hmode
    obtain ⟨mode, hmode⟩ := Option.isSome_iff_exists.mp hmode
    simp only [Word.kinds_cons, Word.keyword_kind, Word.symbol_kind, ImportMode.run,
      ← ImportMode.mode_push, Option.ite_none_right_eq_some] at hmode
    obtain ⟨hregex, hequals, hpattern, -⟩ := hmode
    have hend : EndsName (['='] ++ ('/' :: (body ++ '/' :: flags) ++ rest)) :=
      endsName_cons (by simp [delimiters]) _
    have hname : ScannedAs context "regex".toList (.keyword .regexKw)
        (['='] ++ ('/' :: (body ++ '/' :: flags) ++ rest)) := by
      rw [Word.keyword_eq_name]
      exact scannedAs_name (unitsFormName_text .regexKw) hend
        (expectsUri_of_admits (by simp) hregex)
    have hsymbol : ScannedAs (context.push (.keyword .regexKw)) ['='] (.symbol .equals)
        ('/' :: (body ++ '/' :: flags) ++ rest) :=
      scannedAs_symbol rfl (expectsUri_of_admits (by simp) hequals)
    -- the two words before the slash are what the context is asked for
    have hliteral := scannedAs_pattern hne hstar hbody hflags hrest
      (expectsUri_of_admits (by simp) hpattern) rfl
    exact Or.inl (.trans (.word hname) (.trans (.word hsymbol) (.word hliteral)))
  noReturn hwords hreturn := by
    have hliteral : NoReturn (body ++ '/' :: flags) := by
      simpa using hwords ⟨.regex, String.ofList (body ++ '/' :: flags)⟩ (by simp) rfl
    have hregex : NoReturn "regex".toList := by decide
    have hequals : NoReturn ['='] := by decide
    have hslash : NoReturn ('/' :: (body ++ '/' :: flags)) :=
      noReturn_cons.mpr ⟨by decide, hliteral⟩
    exact noReturn_append.mpr ⟨hregex, noReturn_append.mpr ⟨hequals,
      noReturn_append.mpr ⟨hslash, hreturn⟩⟩⟩

/-- A keyword. -/
lemma keyword (k : Keyword) (hrest : EndsName rest) :
    Scans sure (k.text.toList ++ rest) [.keyword k] rest := by
  rw [Word.keyword_eq_name]
  exact name (unitsFormName_text k) hrest

/-- A symbol. -/
lemma symbol (s : Symbol) : Scans sure (s.text.toList ++ rest) [.symbol s] rest := by
  refine word (by simp) (by cases s <;> decide) fun context hcontext => ?_
  cases s with
  | arrow => exact scannedAs_arrow hcontext
  | _ => exact scannedAs_symbol rfl hcontext

/-- A string literal. -/
lemma string (value : String) :
    Scans sure ((quotedString value).toList ++ rest) [.string value] rest :=
  word (by simp) (noReturn_quotedString value) fun _ hcontext => scannedAs_string value hcontext

/-- A number. -/
lemma number (t : NumberText) (hrest : EndsNumber rest) :
    Scans sure (t.chars ++ rest) [⟨t.kind, String.ofList t.chars⟩] rest := by
  refine word ?_ t.noReturn_chars fun context hcontext => scannedAs_number t hrest hcontext
  simp only [NumberText.kind]
  split <;> simp

/-- What is written for negative infinity is no token. -/
lemma negativeInfinity (h : ¬ sure) {w : Word} (hkind : w.kind ≠ .uri) :
    Scans sure ("-inf".toList ++ rest) [w] rest where
  scansIn := by
    intro context hmode
    simp only [Word.kinds_cons, Word.kinds_nil, ImportMode.run, Option.isSome_ite] at hmode
    have hcontext := expectsUri_of_admits hkind hmode
    refine Or.inr ⟨h, fun place => ⟨⟨.unexpectedCharacter '-', place⟩, ?_⟩⟩
    -- the dash begins no comment, and neither a number nor an arrow
    have hgap : opensGap ("-inf".toList ++ rest) = false :=
      not_opensGap_cons (by decide) (by decide) _
    have hscan : scanToken context '-' ("inf".toList ++ rest) =
        .error (.unexpectedCharacter '-', []) := by
      simp only [scanToken, hcontext]
      rfl
    rw [scanTokens_step, spanGap_of_not_opensGap hgap]
    show (match scanToken context '-' ("inf".toList ++ rest) with
      | .error (fault, before) => _ | .ok (lexeme, rest) => _) = _
    rw [hscan]
    rfl
  noReturn _ hrest := noReturn_append.mpr ⟨by decide, hrest⟩

/-- Words that are sure to be scanned are scanned wherever they may stand. -/
lemma scansIn_of_isSome (h : Scans True text words rest) {context : Context}
    (hmode : (context.mode.run (Word.kinds words)).isSome) : ScansIn context text words rest := by
  rcases h.scansIn context hmode with hscan | ⟨hsure, -⟩
  · exact hscan
  · exact absurd trivial hsure

/-- The tokens of a text that is scanned to its end, if it is sure to be scanned. -/
theorem scanTokens_eq (h : Scans sure text words [])
    (hmode : (ImportMode.outside.run (Word.kinds words)).isSome) :
    (∃ tokens stop, tokens.map Token.word = words ∧
      scanTokens .start .start text = .ok (tokens, stop)) ∨
    ¬ sure ∧ ∃ e, scanTokens .start .start text = .error e := by
  rcases h.scansIn .start hmode with hscan | ⟨hsure, hfail⟩
  · exact Or.inl (hscan.scanTokens_eq .start)
  · exact Or.inr ⟨hsure, hfail .start⟩

end Scans

/-! ### Tokens of any text -/

/-- A pattern and its flags with a slash between them. -/
def IsPatternLiteral (value : String) : Prop :=
  ∃ body flags : List Char, value.toList = body ++ '/' :: flags ∧ body ≠ [] ∧
    body.head? ≠ some '*' ∧ isPatternBody false body = true ∧
    ∀ c ∈ flags, Text.isLetter c = true

/-- What is known of a token from having been scanned. -/
def Word.IsScanned (w : Word) : Prop :=
  match w.kind with
  | .keyword k => w.value = k.text
  | .symbol _ | .string | .integer | .float => True
  | .regex => IsPatternLiteral w.value
  | .uri => IsLocation w.value
  | .identifier =>
    unitsFormName (NameUnit.ofChars w.value.toList) = true ∧ Keyword.ofText? w.value = none
  | .eof => False

/-- What is taken up to a blank may be a location. -/
lemma isLocation_takeWhile {c : Char} {cs : List Char} (hgap : opensGap (c :: cs) = false)
    (hc : Text.isBlank c = false) :
    IsLocation (String.ofList (c :: cs.takeWhile (!Text.isBlank ·))) := by
  refine ⟨by simp, ?_, ?_⟩
  · intro d hd
    simp only [String.toList_ofList, List.mem_cons] at hd
    rcases hd with rfl | hd
    · exact hc
    · simpa using List.all_eq_true.mp List.all_takeWhile d hd
  · by_contra hopens
    have happend := opensGap_append (Bool.of_not_eq_false hopens) (cs.dropWhile (!Text.isBlank ·))
    simp only [String.toList_ofList, List.cons_append, List.takeWhile_append_dropWhile,
      hgap] at happend
    contradiction

/-- What is taken up to a closing slash, with the flags after that, is a pattern. -/
lemma isPatternLiteral_of_spanPattern {cs body after : List Char}
    (hgap : opensGap ('/' :: cs) = false) (hspan : spanPattern cs = some (body, after)) :
    IsPatternLiteral (String.ofList (body ++ '/' :: after.takeWhile Text.isLetter)) := by
  have happend := Concerto.spanPattern_append hspan
  refine ⟨body, after.takeWhile Text.isLetter, by simp, ?_, ?_,
    isPatternBody_of_spanPattern hspan, fun c hc => List.all_eq_true.mp List.all_takeWhile c hc⟩
  · rintro rfl
    rw [← happend] at hgap
    simp [opensGap] at hgap
  · intro hstar
    cases body with
    | nil => simp at hstar
    | cons c body =>
        rw [← happend, Option.some.inj hstar] at hgap
        simp [opensGap] at hgap

/-- A word is scanned as a keyword or as a name. -/
lemma isScanned_of_spanWord? {cs word rest : List Char}
    (h : spanWord? cs = some (word, rest)) :
    (Lexeme.ofWord word).kind ≠ .uri ∧
      Word.IsScanned ⟨(Lexeme.ofWord word).kind, (Lexeme.ofWord word).value⟩ := by
  have hname := unitsFormName_of_spanWord? h
  unfold Lexeme.ofWord
  split
  · next k hk => exact ⟨by simp [Lexeme.verbatim], (Keyword.text_of_ofText? hk).symm⟩
  · next hk =>
      refine ⟨by simp [Lexeme.verbatim], ?_, hk⟩
      simpa [Lexeme.verbatim] using hname

/-- A number is no location, and nothing more is known of it. -/
lemma isScanned_scanNumber (sign cs : List Char) :
    (scanNumber sign cs).1.kind ≠ .uri ∧
      Word.IsScanned ⟨(scanNumber sign cs).1.kind, (scanNumber sign cs).1.value⟩ := by
  simp only [scanNumber, Lexeme.verbatim]
  split <;> simp [Word.IsScanned]

/-- What is known of a single token. -/
lemma isScanned_of_scanToken {context : Context} {c : Char} {cs rest : List Char}
    {lexeme : Lexeme} (hgap : opensGap (c :: cs) = false)
    (h : scanToken context c cs = .ok (lexeme, rest)) :
    (context.expectsUri = true ↔ lexeme.kind = .uri) ∧
      Word.IsScanned ⟨lexeme.kind, lexeme.value⟩ := by
  -- each way to take a token is a condition on the context and a lemma about its text
  cases scanToken_eq_ok_iff.mp h with
  | location huri hc => exact ⟨iff_of_true huri rfl, isLocation_takeWhile hgap hc⟩
  | pattern huri hpattern hspan =>
      exact ⟨by simp [huri], isPatternLiteral_of_spanPattern hgap hspan⟩
  | symbol huri hs => simp [huri, Lexeme.verbatim, Word.IsScanned]
  | arrow huri => simp [huri, Lexeme.verbatim, Word.IsScanned]
  | @negative d ds huri hd =>
      obtain ⟨hkind, hscanned⟩ := isScanned_scanNumber ['-'] (d :: ds)
      exact ⟨by simp [huri, hkind], hscanned⟩
  | string huri hquote hspan => simp [huri, Word.IsScanned]
  | number huri hc =>
      obtain ⟨hkind, hscanned⟩ := isScanned_scanNumber [] (c :: cs)
      exact ⟨by simp [huri, hkind], hscanned⟩
  | word huri hword =>
      obtain ⟨hkind, hscanned⟩ := isScanned_of_spanWord? hword
      exact ⟨by simp [huri, hkind], hscanned⟩

/-- What is known of the tokens of a text: each of them is as it was scanned, and a location
stands where, and only where, an import leads up to it. -/
theorem isScanned_of_scanTokens {context : Context} {place stop : Place} {cs : List Char}
    {tokens : List Token} (h : scanTokens context place cs = .ok (tokens, stop)) :
    (∀ t ∈ tokens, t.word.IsScanned) ∧
      (context.mode.run (Word.kinds (tokens.map Token.word))).isSome := by
  fun_induction scanTokens context place cs generalizing tokens stop with
  | case1 => simp at h
  | case2 =>
      simp only [Except.ok.injEq, Prod.mk.injEq] at h
      simp [← h.1, ImportMode.run]
  | case3 => simp at h
  | case4 => simp at h
  -- a token is admitted in the mode of its context, and the next ones in the mode after it
  | case5 context place cs gap c cs' hgap place' lexeme rest htoken tokens' stop' hrest =>
      rename_i ih
      simp only [Except.ok.injEq, Prod.mk.injEq] at h
      obtain ⟨rfl, rfl⟩ := h
      obtain ⟨hadmits, hscanned⟩ := isScanned_of_scanToken (not_opensGap_of_spanGap hgap) htoken
      obtain ⟨hall, hrun⟩ := ih hrest
      refine ⟨?_, ?_⟩
      · intro t ht
        rcases List.mem_cons.mp ht with rfl | ht
        · exact hscanned
        · exact hall t ht
      · rw [ImportMode.mode_push] at hrun
        simp only [List.map_cons, Word.kinds_cons, Token.word_kind, ImportMode.run,
          (ImportMode.admits_iff context _).mpr hadmits, if_true]
        exact hrun

/-! ### Texts with their end -/

/-- The tokens of a text are those that are scanned from it, and its end. -/
lemma tokenize_eq_ok {source : String} {tokens : List Token} :
    tokenize source = .ok tokens ↔ ∃ before stop,
      scanTokens .start .start source.toList = .ok (before, stop) ∧
        before ++ [⟨.eof, "", stop⟩] = tokens := by
  rw [tokenize]
  cases scanTokens .start .start source.toList with
  | error e => simp [bind, Except.bind]
  | ok scanned =>
      obtain ⟨before, stop⟩ := scanned
      simp [bind, Except.bind, pure, Except.pure]

/-- A text that is sure to be scanned to its end has tokens. -/
lemma Scans.exists_tokenize {source : String} {words : List Word}
    (h : Scans True source.toList words [])
    (hmode : (ImportMode.outside.run (Word.kinds words)).isSome) :
    ∃ tokens, tokenize source = .ok tokens ∧ tokens.map Token.word = words ++ [.eof] := by
  have hstart : (Context.start.mode.run (Word.kinds words)).isSome := hmode
  obtain ⟨before, stop, rfl, hscan⟩ := (h.scansIn_of_isSome hstart).scanTokens_eq .start
  exact ⟨_, tokenize_eq_ok.mpr ⟨before, stop, hscan, rfl⟩, List.map_append⟩

/-- Every token before the end of a text is as it was scanned. -/
lemma isScanned_of_tokenize {source : String} {tokens : List Token} {words : List Word}
    (h : tokenize source = .ok tokens) (hwords : tokens.map Token.word = words ++ [.eof]) :
    ∀ w ∈ words, w.IsScanned := by
  obtain ⟨before, stop, hscan, rfl⟩ := tokenize_eq_ok.mp h
  rw [List.map_append] at hwords
  obtain ⟨rfl, -⟩ := List.append_inj' hwords rfl
  intro w hw
  obtain ⟨t, ht, rfl⟩ := List.mem_map.mp hw
  exact (isScanned_of_scanTokens hscan).1 t ht

end Concerto
