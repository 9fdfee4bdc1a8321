import Concerto.Proofs.Outcome
import Concerto.Proofs.Token.Spelling
import Mathlib.Data.List.Induction

/-!
How the tokens of a text lie in it.

* `IsGap`: blanks and comments;
* `Spells`: the text that a token is written with;
* `placeOf`: the place of a character, by the line breaks before it; `Place.after_start` says that this is
  the place which scanning counts up to;
* `Tiles`: a text is made of gaps and of the texts of tokens, each token having the place of its first
  character, and the end of the text the place after its last;
* `tokenize_tiles`: the tokens of a text tile it.
-/

namespace Concerto

/-! ### Gaps -/

/-- Blanks and comments. A comment after two slashes lasts up to a line break, or up to the end of the
text if the gap does; any other comment lasts up to the first star with a slash after it. -/
inductive IsGap (atEnd : Prop) : List Char → Prop
  | nil : IsGap atEnd []
  | blank {c : Char} {cs : List Char} (hc : c ∈ [' ', '\t', '\r', '\n', '\uFEFF'])
      (h : IsGap atEnd cs) : IsGap atEnd (c :: cs)
  | line {text cs : List Char} (htext : '\n' ∉ text) (h : IsGap atEnd ('\n' :: cs)) :
      IsGap atEnd ('/' :: '/' :: text ++ '\n' :: cs)
  | lastLine {text : List Char} (hend : atEnd) (htext : '\n' ∉ text) : IsGap atEnd ('/' :: '/' :: text)
  | block {text cs : List Char} (htext : ¬ ['*', '/'] <:+: text) (h : IsGap atEnd cs) :
      IsGap atEnd ('/' :: '*' :: text ++ '*' :: '/' :: cs)

lemma mem_of_isTokenBlank {c : Char} (h : isTokenBlank c = true) :
    c ∈ [' ', '\t', '\r', '\n', '\uFEFF'] := by
  simpa [isTokenBlank, or_assoc] using h

/-- A block comment lasts up to the first star with a slash after it. -/
lemma exists_of_spanBlockComment {cs comment rest : List Char}
    (h : spanBlockComment cs = some (comment, rest)) :
    ∃ text, comment = text ++ ['*', '/'] ∧ ¬ ['*', '/'] <:+: text := by
  fun_induction spanBlockComment cs generalizing comment rest with
  | case1 => cases h
  | case2 rest' =>
      cases h
      exact ⟨[], rfl, by simp⟩
  | case3 c cs hends ih =>
      obtain ⟨⟨comment', rest'⟩, hspan, hcomment⟩ := Option.map_eq_some_iff.mp h
      cases hcomment
      obtain ⟨text, rfl, htext⟩ := ih hspan
      refine ⟨c :: text, rfl, ?_⟩
      rw [List.infix_cons_iff]
      rintro (hbegins | hinside)
      · -- a star before a slash would have ended the comment
        obtain ⟨rfl, tail, htail⟩ := List.cons_prefix_cons.mp hbegins
        have happend := spanBlockComment_append hspan
        rw [← htail] at happend
        exact hends _ rfl happend.symm
      · exact htext hinside

/-- After a line comment the gap ends with the text, or goes on with the line feed. -/
lemma gap_after_line {cs gap rest : List Char}
    (h : spanGap (cs.dropWhile (· ≠ '\n')) = .ok (gap, rest)) :
    gap = [] ∧ rest = [] ∨ ∃ gap', gap = '\n' :: gap' := by
  have happend := spanGap_append h
  have hopens := not_opensGap_of_spanGap h
  -- the text after the comment is empty or begins with a line feed, which opens a gap
  cases hrest : cs.dropWhile (· ≠ '\n') with
  | nil =>
      rw [hrest, List.append_eq_nil_iff] at happend
      exact .inl happend
  | cons c after =>
      obtain rfl : c = '\n' := by
        have hhead := List.head?_dropWhile_not (· ≠ '\n') cs
        rw [hrest] at hhead
        simpa using hhead
      rw [hrest] at happend
      cases gap with
      | nil =>
          rw [List.nil_append] at happend
          rw [happend] at hopens
          exact absurd hopens (by simp [opensGap, isTokenBlank])
      | cons d gap =>
          obtain ⟨rfl, -⟩ := List.cons.inj happend
          exact .inr ⟨gap, rfl⟩

/-- What is left out between tokens is blanks and comments. -/
lemma isGap_of_spanGap {cs gap rest : List Char} (h : spanGap cs = .ok (gap, rest)) :
    IsGap (rest = []) gap := by
  fun_induction spanGap cs generalizing gap rest with
  | case1 =>
      cases h
      exact .nil
  | case2 cs line gap' rest' hspan =>
      rename_i ih
      cases h
      have hline : '\n' ∉ line := fun hmem => by
        simpa using List.all_eq_true.mp List.all_takeWhile '\n' hmem
      rcases gap_after_line hspan with ⟨rfl, rfl⟩ | ⟨gap', rfl⟩
      · rw [List.append_nil]
        exact .lastLine rfl hline
      · exact .line hline (ih hspan)
  | case3 => cases h
  | case4 => cases h
  | case5 cs comment rest₁ hcomment gap' rest' hspan ih =>
      cases h
      obtain ⟨text, rfl, htext⟩ := exists_of_spanBlockComment hcomment
      have hgap := IsGap.block htext (ih hspan)
      simpa using hgap
  | case6 => cases h
  | case7 c cs _ _ hblank gap' rest' hspan ih =>
      cases h
      exact .blank (mem_of_isTokenBlank hblank) (ih hspan)
  | case8 => cases h
  | case9 =>
      cases h
      exact .nil

/-! ### Spellings -/

/-- A text that stands for a value inside a string with the given quotes. -/
inductive Escapes (quote : Char) : List Char → List Char → Prop
  | nil : Escapes quote [] []
  | char {c : Char} {text value : List Char} (hquote : c ≠ quote) (hslash : c ≠ '\\')
      (hline : c ≠ '\n') (h : Escapes quote text value) : Escapes quote (c :: text) (c :: value)
  | escape {e c : Char} {text value : List Char}
      (he : (e, c) ∈ [('n', '\n'), ('t', '\t'), ('r', '\r'), ('\\', '\\'), ('"', '"'), ('\'', '\'')])
      (h : Escapes quote text value) : Escapes quote ('\\' :: e :: text) (c :: value)

/-- The text that a token is written with. That of a string has quotes and escapes, that of a pattern a
slash before its value; that of any other token is its value. -/
def Spells (kind : TokenKind) (value : String) (text : List Char) : Prop :=
  match kind with
  | .eof => False
  | .string => ∃ quote ∈ ['"', '\''], ∃ body,
      text = quote :: body ++ [quote] ∧ Escapes quote body value.toList
  | .regex => text = '/' :: value.toList
  | _ => text = value.toList

lemma spells_verbatim {kind : TokenKind} (h : kind ≠ .eof ∧ kind ≠ .string ∧ kind ≠ .regex)
    (text : List Char) :
    Spells (Lexeme.verbatim kind text).kind (Lexeme.verbatim kind text).value
      (Lexeme.verbatim kind text).text := by
  obtain ⟨heof, hstring, hregex⟩ := h
  simp only [Lexeme.verbatim, Spells]
  exact String.toList_ofList.symm

lemma mem_of_unescape? {e c : Char} (h : unescape? e = some c) :
    (e, c) ∈ [('n', '\n'), ('t', '\t'), ('r', '\r'), ('\\', '\\'), ('"', '"'), ('\'', '\'')] := by
  unfold unescape? at h
  split at h <;> first | (cases h; decide) | cases h

/-- A string is written with its closing quote. -/
lemma exists_of_spanString {quote : Char} {cs value text rest : List Char}
    (h : spanString quote cs = .ok (value, text, rest)) :
    ∃ body, text = body ++ [quote] ∧ Escapes quote body value := by
  fun_induction spanString quote cs generalizing value text rest with
  | case1 => cases h
  | case2 => cases h
  | case3 => cases h
  | case4 e cs c he value' text' rest' hspan ih =>
      cases h
      obtain ⟨body, rfl, hbody⟩ := ih hspan
      exact ⟨'\\' :: e :: body, rfl, .escape (mem_of_unescape? he) hbody⟩
  | case5 => cases h
  | case6 =>
      cases h
      exact ⟨[], rfl, .nil⟩
  | case7 => cases h
  | case8 c cs hend hescape hquote hline value' text' rest' hspan ih =>
      cases h
      obtain ⟨body, rfl, hbody⟩ := ih hspan
      -- only an escape begins with a backslash, and the cases of escapes have been left behind
      have hslash : c ≠ '\\' := by
        rintro rfl
        cases cs with
        | nil => exact hend rfl rfl
        | cons e cs => exact hescape e cs rfl rfl
      exact ⟨c :: body, rfl, .char hquote hslash hline hbody⟩
  | case9 => cases h

lemma spells_word (word : List Char) :
    Spells (Lexeme.ofWord word).kind (Lexeme.ofWord word).value word := by
  unfold Lexeme.ofWord
  split <;> exact spells_verbatim (by simp) word

lemma spells_scanNumber (sign cs : List Char) :
    Spells (scanNumber sign cs).1.kind (scanNumber sign cs).1.value (scanNumber sign cs).1.text := by
  simp only [scanNumber]
  split <;> exact spells_verbatim (by simp) _

/-- A token is written with the text that is taken for it. -/
lemma spells_of_scanToken {context : Context} {c : Char} {cs rest : List Char} {lexeme : Lexeme}
    (h : scanToken context c cs = .ok (lexeme, rest)) :
    Spells lexeme.kind lexeme.value lexeme.text := by
  cases scanToken_eq_ok_iff.mp h with
  | location | symbol | arrow => exact spells_verbatim (by simp) _
  | pattern => simp [Spells]
  | @negative d ds => exact spells_scanNumber ['-'] (d :: ds)
  | string huri hquote hspan =>
      obtain ⟨body, rfl, hbody⟩ := exists_of_spanString hspan
      exact ⟨c, by simpa using hquote, body, rfl, by simpa using hbody⟩
  | number => exact spells_scanNumber [] (c :: cs)
  | word =>
      rw [Lexeme.ofWord_text]
      exact spells_word _

/-! ### Places -/

/-- The place of a character. Its line is counted by the line breaks before it, its column by the
characters after the last of these. -/
def placeOf (source : List Char) (offset : Nat) : Place where
  line := (source.take offset).count '\n' + 1
  column := ((source.take offset).reverse.takeWhile (· ≠ '\n')).length + 1

lemma Place.after_start (text : List Char) : Place.start.after text = placeOf text text.length := by
  rw [placeOf, List.take_length]
  induction text using List.reverseRecOn with
  | nil => rfl
  | append_singleton text c ih =>
      rw [Place.after_append, ih]
      by_cases hc : c = '\n' <;> simp [Place.after, Place.next, hc]

lemma placeOf_append (text rest : List Char) :
    placeOf (text ++ rest) text.length = Place.start.after text := by
  rw [Place.after_start, placeOf, placeOf, List.take_left, List.take_length]

/-! ### Tiles -/

/-- The text from one offset up to another. -/
def textBetween (source : List Char) (first last : Nat) : List Char :=
  (source.take last).drop first

lemma textBetween_append (before text rest : List Char) :
    textBetween (before ++ text ++ rest) before.length (before ++ text).length = text := by
  rw [textBetween, List.take_left, List.drop_left]

/-- From an offset on, the text is made of gaps and the texts of the tokens. The last token marks the
end of the text, and no other token does. -/
inductive Tiles (source : List Char) : Nat → List Token → Prop
  | stop {offset : Nat} (hoffset : offset ≤ source.length)
      (hgap : IsGap True (textBetween source offset source.length)) :
      Tiles source offset [⟨.eof, "", placeOf source source.length⟩]
  | token {offset first last : Nat} {kind : TokenKind} {value : String} {tokens : List Token}
      (hoffset : offset ≤ first) (hfirst : first < last) (hlast : last ≤ source.length)
      (hgap : IsGap False (textBetween source offset first))
      (hspells : Spells kind value (textBetween source first last))
      (hrest : Tiles source last tokens) :
      Tiles source offset (⟨kind, value, placeOf source first⟩ :: tokens)

/-- Gaps and tokens follow each other as they are scanned, with their places. -/
lemma tiles_of_scanTokens {context : Context} {place stop : Place} {before cs : List Char}
    {tokens : List Token} (hplace : place = Place.start.after before)
    (h : scanTokens context place cs = .ok (tokens, stop)) :
    Tiles (before ++ cs) before.length (tokens ++ [⟨.eof, "", stop⟩]) := by
  fun_induction scanTokens context place cs generalizing before tokens stop with
  | case1 => cases h
  | case2 context place cs gap hgap =>
      cases h
      have happend : gap = cs := by simpa using spanGap_append hgap
      subst happend hplace
      rw [← Place.after_append, Place.after_start]
      refine .stop (by simp) ?_
      have hbetween := textBetween_append before gap []
      rw [List.append_nil] at hbetween
      rw [hbetween]
      simpa using isGap_of_spanGap hgap
  | case3 => cases h
  | case4 => cases h
  | case5 context place cs gap c cs' hgap place' lexeme rest htoken tokens' stop' hrest =>
      rename_i ih
      -- the token stands after what has been read and the gap, and the rest of the tokens after it
      cases h
      obtain ⟨htext, hne⟩ := scanToken_append htoken
      have hsource : before ++ cs = before ++ gap ++ lexeme.text ++ rest := by
        rw [← spanGap_append hgap, ← htext]
        simp only [List.append_assoc]
      have hafter : place' = Place.start.after (before ++ gap) := by
        rw [Place.after_append, ← hplace]
      have htiles := @ih _ (before ++ gap ++ lexeme.text) _
        (by rw [Place.after_append, ← hafter]) hrest
      have hplaceOf := placeOf_append (before ++ gap) (lexeme.text ++ rest)
      rw [← List.append_assoc] at hplaceOf
      rw [List.cons_append, hafter, hsource, ← hplaceOf]
      have hpos := List.length_pos_iff.mpr hne
      refine .token (by simp) (by simpa using hpos) (by simp) ?_ ?_ htiles
      · have hbetween := textBetween_append before gap (lexeme.text ++ rest)
        rw [← List.append_assoc] at hbetween
        rw [hbetween]
        simpa using isGap_of_spanGap hgap
      · rw [textBetween_append]
        exact spells_of_scanToken htoken

/-- The last of the tokens that tile a text is the only one that marks its end. -/
lemma Tiles.exists_init {source : List Char} {offset : Nat} {tokens : List Token}
    (h : Tiles source offset tokens) :
    ∃ init, tokens = init ++ [⟨.eof, "", placeOf source source.length⟩] ∧
      ∀ t ∈ init, t.kind ≠ .eof := by
  induction h with
  | stop => exact ⟨[], rfl, by simp⟩
  | token _ _ _ _ hspells _ ih =>
      obtain ⟨init, rfl, hinit⟩ := ih
      refine ⟨_ :: init, rfl, List.forall_mem_cons.mpr ⟨?_, hinit⟩⟩
      rintro rfl
      exact hspells

/-- The characters of a pattern are characters of the text. -/
lemma Tiles.subset_of_regex {source : List Char} {offset : Nat} {tokens : List Token}
    (h : Tiles source offset tokens) :
    ∀ t ∈ tokens, t.kind = .regex → t.value.toList ⊆ source := by
  induction h with
  | stop => simp
  | token _ _ _ _ hspells _ ih =>
      refine List.forall_mem_cons.mpr ⟨?_, ih⟩
      rintro rfl
      have htext := hspells
      rw [Spells] at htext
      intro c hc
      have hmem : c ∈ textBetween _ _ _ := htext ▸ List.mem_cons_of_mem '/' hc
      exact List.take_subset _ _ (List.drop_subset _ _ hmem)

/-- The tokens of a text tile it, with the end of the text as the last one and nowhere else. -/
theorem tokenize_tiles {source : String} {tokens : List Token}
    (h : tokenize source = .ok tokens) :
    Tiles source.toList 0 tokens ∧
      ∃ init, tokens = init ++ [⟨.eof, "", placeOf source.toList source.toList.length⟩] ∧
        ∀ t ∈ init, t.kind ≠ .eof := by
  obtain ⟨⟨before, stop⟩, hscan, htokens⟩ := bind_eq_ok.mp h
  cases htokens
  have htiles : Tiles ([] ++ source.toList) 0 (before ++ [⟨.eof, "", stop⟩]) :=
    tiles_of_scanTokens rfl hscan
  exact ⟨htiles, htiles.exists_init⟩

/-- A text with a string, a pattern and comments of both kinds, one of them over two lines. -/
def commentedText : String := "o /* a\n*/ \"x\\n\" regex=\t/\\/b/g // c"

theorem tokenize_tiles_commented :
    ∃ tokens, tokenize commentedText = .ok tokens ∧ Tiles commentedText.toList 0 tokens ∧
      tokens = [⟨.keyword .propertyKw, "o", ⟨1, 1⟩⟩, ⟨.string, "x\n", ⟨2, 4⟩⟩,
        ⟨.keyword .regexKw, "regex", ⟨2, 10⟩⟩, ⟨.symbol .equals, "=", ⟨2, 15⟩⟩,
        ⟨.regex, "\\/b/g", ⟨2, 17⟩⟩, ⟨.eof, "", ⟨2, 28⟩⟩] := by
  have htokens : tokenize commentedText =
      .ok [⟨.keyword .propertyKw, "o", ⟨1, 1⟩⟩, ⟨.string, "x\n", ⟨2, 4⟩⟩,
        ⟨.keyword .regexKw, "regex", ⟨2, 10⟩⟩, ⟨.symbol .equals, "=", ⟨2, 15⟩⟩,
        ⟨.regex, "\\/b/g", ⟨2, 17⟩⟩, ⟨.eof, "", ⟨2, 28⟩⟩] := by
    decide +kernel
  exact ⟨_, htokens, (tokenize_tiles htokens).1, rfl⟩

end Concerto
