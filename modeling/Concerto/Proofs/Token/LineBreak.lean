import Concerto.Proofs.Token.Lookahead

/-!
Scanning a text in front of another one.

* `BreaksLine`: a text that is empty or begins on a new line;
* `spanGap_extend`: before such a text, a gap is skipped as it is at the end;
* `scansIn_of_scanTokens`: all tokens of a text are scanned before it as they are at the end, and in
  another context too, if the location of an import and a pattern are expected at the same places.
-/

namespace Concerto

/-- The text is empty or begins with a line break. -/
def BreaksLine (rest : List Char) : Prop := ∀ c ∈ rest.head?, c = '\n'

lemma breaksLine_nil : BreaksLine [] := by simp [BreaksLine]

lemma breaksLine_cons (rest : List Char) : BreaksLine ('\n' :: rest) := by simp [BreaksLine]

variable {rest : List Char}

/-- A line break begins a gap. -/
lemma BreaksLine.endsToken (h : BreaksLine rest) : EndsToken rest := by
  intro c hc
  rw [h c hc]
  decide

lemma BreaksLine.endsName (h : BreaksLine rest) : EndsName rest := h.endsToken.endsName

/-- A line break is blank. -/
lemma BreaksLine.isBlank_head?_append (h : BreaksLine rest) {after : List Char}
    (hafter : ∀ c ∈ after.head?, Text.isBlank c = true) :
    ∀ c ∈ (after ++ rest).head?, Text.isBlank c = true := by
  intro c hc
  rcases List.head?_append.symm.trans hc |> Option.or_eq_some_iff.mp with hc | ⟨-, hc⟩
  · exact hafter c hc
  · rw [h c hc]
    decide

/-! ### Gaps -/

/-- A block comment ends with a star and a slash. -/
lemma spanBlockComment_extend {cs comment after : List Char}
    (h : spanBlockComment cs = some (comment, after)) (rest : List Char) :
    spanBlockComment (cs ++ rest) = some (comment, after ++ rest) := by
  fun_induction spanBlockComment cs generalizing comment after with
  | case1 => simp at h
  | case2 =>
      simp only [Option.some.injEq, Prod.mk.injEq] at h
      obtain ⟨rfl, rfl⟩ := h
      rfl
  | case3 c cs hend ih =>
      obtain ⟨⟨comment', after'⟩, hspan, h⟩ := Option.map_eq_some_iff.mp h
      cases h
      have htail := ih hspan
      rw [List.cons_append, spanBlockComment.eq_def]
      split
      · next heq => simp at heq
      · next heq =>
          -- a star at the end of the text would not have ended the comment
          cases cs with
          | nil => simp [spanBlockComment] at hspan
          | cons d ds => simp_all
      · next heq =>
          obtain ⟨rfl, rfl⟩ := List.cons.inj heq
          rw [htail]
          rfl

/-- Characters of a class that a line break is not in. -/
lemma takeWhile_extend {p : Char → Bool} (hp : p '\n' = false) (hrest : BreaksLine rest)
    (cs : List Char) :
    (cs ++ rest).takeWhile p = cs.takeWhile p ∧ (cs ++ rest).dropWhile p = cs.dropWhile p ++ rest := by
  have hhead : ∀ c ∈ (cs.dropWhile p ++ rest).head?, p c = false := by
    intro c hc
    rcases List.head?_append.symm.trans hc |> Option.or_eq_some_iff.mp with hc | ⟨-, hc⟩
    · have hfirst := List.head?_dropWhile_not p cs
      rwa [Option.mem_def.mp hc] at hfirst
    · rw [hrest c hc, hp]
  have htake := takeWhile_append_of_head (p := p) (cs.takeWhile p) (cs.dropWhile p ++ rest)
    (fun c hc => List.all_eq_true.mp List.all_takeWhile c hc) hhead
  rwa [← List.append_assoc, List.takeWhile_append_dropWhile] at htake

/-- What is before a gap belongs to it. -/
def widenGap (before : List Char) : Except FaultAfter (List Char × List Char) →
    Except FaultAfter (List Char × List Char)
  | .ok (gap, rest) => .ok (before ++ gap, rest)
  | .error (fault, gap) => .error (fault, before ++ gap)

lemma widenGap_nil (split : Except FaultAfter (List Char × List Char)) : widenGap [] split = split := by
  rcases split with ⟨fault, gap⟩ | ⟨gap, rest⟩ <;> rfl

lemma widenGap_widenGap (before gap : List Char) (split : Except FaultAfter (List Char × List Char)) :
    widenGap before (widenGap gap split) = widenGap (before ++ gap) split := by
  rcases split with ⟨fault, gap'⟩ | ⟨gap', rest⟩ <;> simp [widenGap]

lemma spanGap_line (cs : List Char) : spanGap ('/' :: '/' :: cs) =
    widenGap ('/' :: '/' :: cs.takeWhile (· ≠ '\n')) (spanGap (cs.dropWhile (· ≠ '\n'))) := by
  rw [spanGap]
  split <;> next heq => rw [heq]; rfl

lemma spanGap_block {cs comment after : List Char} (h : spanBlockComment cs = some (comment, after)) :
    spanGap ('/' :: '*' :: cs) = widenGap ('/' :: '*' :: comment) (spanGap after) := by
  rw [spanGap]
  split
  · simp_all
  · next heq =>
      rw [h] at heq
      cases heq
      split <;> next heq => rw [heq]; rfl

lemma spanGap_cons {c : Char} (hc : isTokenBlank c = true) (cs : List Char) :
    spanGap (c :: cs) = widenGap [c] (spanGap cs) := by
  rw [spanGap_blank hc]
  rcases spanGap cs with ⟨fault, before⟩ | ⟨gap, after⟩ <;> rfl

/-- A gap goes on where it would have ended with the text. -/
lemma spanGap_extend {cs gap after : List Char} (hrest : BreaksLine rest)
    (h : spanGap cs = .ok (gap, after)) :
    spanGap (cs ++ rest) = widenGap gap (spanGap (after ++ rest)) := by
  fun_induction spanGap cs generalizing gap after with
  | case1 =>
      simp only [Except.ok.injEq, Prod.mk.injEq] at h
      obtain ⟨rfl, rfl⟩ := h
      exact (widenGap_nil _).symm
  | case2 cs line gap' after' hspan =>
      rename_i ih
      simp only [Except.ok.injEq, Prod.mk.injEq] at h
      obtain ⟨rfl, rfl⟩ := h
      obtain ⟨htake, hdrop⟩ := takeWhile_extend (p := (· ≠ '\n')) (by simp) hrest cs
      rw [List.cons_append, List.cons_append, spanGap_line, htake, hdrop, ih hspan,
        widenGap_widenGap]
  | case3 => simp at h
  | case4 => simp at h
  | case5 cs comment after₁ hcomment gap' after' hspan ih =>
      simp only [Except.ok.injEq, Prod.mk.injEq] at h
      obtain ⟨rfl, rfl⟩ := h
      rw [List.cons_append, List.cons_append, spanGap_block (spanBlockComment_extend hcomment rest),
        ih hspan, widenGap_widenGap]
  | case6 => simp at h
  | case7 c cs _ _ hblank gap' after' hspan ih =>
      simp only [Except.ok.injEq, Prod.mk.injEq] at h
      obtain ⟨rfl, rfl⟩ := h
      rw [List.cons_append, spanGap_cons hblank, ih hspan, widenGap_widenGap]
      rfl
  | case8 => simp at h
  | case9 c cs _ _ _ =>
      simp only [Except.ok.injEq, Prod.mk.injEq] at h
      obtain ⟨rfl, rfl⟩ := h
      exact (widenGap_nil _).symm

/-- Where a text begins with a gap, the scanner goes on after it. -/
lemma scanTokens_gap {cs gap after : List Char} (h : spanGap cs = widenGap gap (spanGap after))
    (context : Context) (place : Place) :
    scanTokens context place cs = scanTokens context (place.after gap) after := by
  rw [scanTokens_step context place, scanTokens_step context (place.after gap), h]
  rcases spanGap after with ⟨fault, before⟩ | ⟨gap', _ | ⟨c, cs⟩⟩ <;>
    simp only [widenGap, Place.after_append]

/-! ### Texts -/

/-- A gap before words. -/
lemma ScansIn.gap {context : Context} {cs gap after : List Char} {words : List Word}
    (hgap : spanGap cs = widenGap gap (spanGap after)) (h : ScansIn context after words rest) :
    ScansIn context cs words rest := by
  intro place
  rw [scanTokens_gap hgap]
  exact h (place.after gap)

/-- Of its context, a token depends on what is expected. -/
lemma scanToken_congr {context context' : Context} {c : Char} {cs after : List Char}
    {lexeme : Lexeme} (huri : context'.expectsUri = context.expectsUri)
    (hpattern : context.expectsPattern = true → context'.expectsPattern = true)
    (h : scanToken context c cs = .ok (lexeme, after)) :
    scanToken context' c cs = .ok (lexeme, after) := by
  refine scanToken_eq_ok_iff.mpr ?_
  cases scanToken_eq_ok_iff.mp h with
  | location hexpects hc => exact .location (huri.trans hexpects) hc
  | pattern hexpects hslash hspan => exact .pattern (huri.trans hexpects) (hpattern hslash) hspan
  | symbol hexpects hs => exact .symbol (huri.trans hexpects) hs
  | arrow hexpects => exact .arrow (huri.trans hexpects)
  | negative hexpects hd => exact .negative (huri.trans hexpects) hd
  | string hexpects hquote hspan => exact .string (huri.trans hexpects) hquote hspan
  | number hexpects hc => exact .number (huri.trans hexpects) hc
  | word hexpects hword => exact .word (huri.trans hexpects) hword

/-- The tokens of a text are scanned from it before a line break too, and in another context, if
locations and patterns are expected where they have been found. -/
theorem scansIn_of_scanTokens {context context' : Context} {place stop : Place} {cs : List Char}
    {tokens : List Token} (h : scanTokens context place cs = .ok (tokens, stop))
    (hmode : (context'.mode.run (Word.kinds (tokens.map Token.word))).isSome)
    (hpattern : ∀ before, before <+: tokens.map Token.word →
      (context.pushAll before).expectsPattern = true →
        (context'.pushAll before).expectsPattern = true)
    (hrest : BreaksLine rest) :
    ScansIn context' (cs ++ rest) (tokens.map Token.word) rest := by
  fun_induction scanTokens context place cs generalizing context' tokens stop with
  | case1 => simp at h
  | case2 context place cs gap hgap =>
      simp only [Except.ok.injEq, Prod.mk.injEq] at h
      obtain ⟨rfl, rfl⟩ := h
      exact .gap (spanGap_extend hrest hgap) (.refl rest)
  | case3 => simp at h
  | case4 => simp at h
  | case5 context place cs gap c cs' hgap place' lexeme after htoken tokens' stop' hafter =>
      rename_i ih
      simp only [Except.ok.injEq, Prod.mk.injEq] at h
      obtain ⟨rfl, rfl⟩ := h
      have hopens := not_opensGap_of_spanGap hgap
      obtain ⟨mode, hmode⟩ := Option.isSome_iff_exists.mp hmode
      simp only [List.map_cons, Word.kinds_cons, Token.word_kind, ImportMode.run,
        Option.ite_none_right_eq_some, ← ImportMode.mode_push] at hmode
      obtain ⟨hadmits, hmode⟩ := hmode
      -- both contexts expect a location if and only if the token is one
      have huri : context'.expectsUri = context.expectsUri := by
        rw [Bool.eq_iff_iff, (isScanned_of_scanToken hopens htoken).1]
        exact (ImportMode.admits_iff context' _).mp hadmits
      have htoken' := scanToken_congr huri (hpattern [] (by simp)) htoken
      have hword := ScansIn.word (scannedAs_of_scanToken hopens htoken' (hrest.endsToken.sameAhead _)
        fun huri' => hrest.isBlank_head?_append (isBlank_of_expectsUri huri' htoken'))
      have hothers := ih hafter (by rw [hmode]; rfl) fun before hbefore =>
        hpattern (⟨lexeme.kind, lexeme.value⟩ :: before) (List.cons_prefix_cons.mpr ⟨rfl, hbefore⟩)
      refine .gap (spanGap_extend hrest hgap) ?_
      rw [← (scanToken_append htoken).1, List.append_assoc]
      exact hword.trans hothers

/-! ### Contexts -/

namespace Context

variable {context context' : Context}

/-- No pattern begins where the token before is no equals sign. -/
lemma not_expectsPattern (h : context.last ≠ some (.symbol .equals)) :
    context.expectsPattern = false := by
  simp [expectsPattern, h]

/-- A pattern is expected because of the two tokens before it. -/
lemma expectsPattern_congr (context context' : Context) (hlast : context'.last = context.last)
    (hbefore : context'.lastButOne = context.lastButOne) (words : List Word) :
    (context'.pushAll words).expectsPattern = (context.pushAll words).expectsPattern := by
  induction words generalizing context context' with
  | nil =>
      show context'.expectsPattern = context.expectsPattern
      rw [expectsPattern, expectsPattern, hlast, hbefore]
  | cons w words ih => exact ih (context.push w.kind) (context'.push w.kind) rfl hlast

/-- Some words begin a statement: neither the token before them nor the first of them is an equals
sign. Then a pattern is not expected because of what is before them. -/
lemma expectsPattern_pushAll (context' : Context) (hlast : context.last ≠ some (.symbol .equals))
    {words : List Word} (hfirst : ∀ w ∈ words.head?, w.kind ≠ .symbol .equals) {before : List Word}
    (hbefore : before <+: words) (h : (context.pushAll before).expectsPattern = true) :
    (context'.pushAll before).expectsPattern = true := by
  match before with
  | [] => exact absurd h (by rw [pushAll, List.foldl_nil, not_expectsPattern hlast]; simp)
  | [w] =>
      have hw : (context.pushAll [w]).last ≠ some (.symbol .equals) := by
        obtain ⟨after, rfl⟩ := hbefore
        simpa [pushAll, push] using hfirst w rfl
      rw [not_expectsPattern hw] at h
      contradiction
  | w :: w' :: before =>
      exact (expectsPattern_congr ((context.push w.kind).push w'.kind)
        ((context'.push w.kind).push w'.kind) rfl rfl before).trans h

/-- The last token of some words is none that is not among them. -/
lemma last_pushAll_ne {kind : TokenKind} {words : List Word} (hlast : context.last ≠ some kind)
    (hwords : ∀ w ∈ words, w.kind ≠ kind) : (context.pushAll words).last ≠ some kind := by
  induction words generalizing context with
  | nil => exact hlast
  | cons w words ih =>
      have hw : (context.push w.kind).last ≠ some kind := by simpa [push] using hwords w (by simp)
      exact ih hw fun w' hw' => hwords w' (by simp [hw'])

end Context

end Concerto
