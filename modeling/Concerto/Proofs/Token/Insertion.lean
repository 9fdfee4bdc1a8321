import Concerto.Proofs.Token.LineBreak
import Concerto.Proofs.Token.Tiling

/-!
Blanks and comments put into a text.

* `IsGap.spanGap_append`: a gap is skipped before any text;
* `not_isBlank_of_scanToken`: no token begins with a blank;
* `eq_of_after_eq`: a place belongs to one character of a text;
* `exists_insertion`: a text is scanned to the same words if blanks and comments are put before one of
  its tokens.
-/

namespace Concerto

/-! ### Gaps -/

/-- A block comment is taken with the star and the slash that end it. -/
lemma spanBlockComment_append_of_not_infix {text : List Char} (h : ¬ ['*', '/'] <:+: text)
    (rest : List Char) :
    spanBlockComment (text ++ '*' :: '/' :: rest) = some (text ++ ['*', '/'], rest) := by
  induction text with
  | nil => rfl
  | cons c text ih =>
      rw [List.infix_cons_iff, not_or] at h
      have htail := ih h.2
      rw [List.cons_append, spanBlockComment.eq_def]
      split
      · next heq => cases heq
      · next heq =>
          -- the comment would have ended at its first character
          obtain ⟨rfl, hnext⟩ := List.cons.inj heq
          cases text with
          | nil => cases hnext
          | cons d text =>
              obtain ⟨rfl, -⟩ := List.cons.inj hnext
              exact absurd (List.prefix_append ['*', '/'] text) h.1
      · next heq =>
          obtain ⟨rfl, rfl⟩ := List.cons.inj heq
          rw [htail]
          rfl

/-- A gap is skipped before any text. -/
lemma IsGap.spanGap_append {gap : List Char} (h : IsGap False gap) (rest : List Char) :
    spanGap (gap ++ rest) = widenGap gap (spanGap rest) := by
  induction h with
  | nil => exact (widenGap_nil _).symm
  | @blank c cs hc _ ih =>
      have hblank : isTokenBlank c = true := by
        have hall : [' ', '\t', '\r', '\n', '\uFEFF'].all isTokenBlank = true := by decide
        exact List.all_eq_true.mp hall c hc
      rw [List.cons_append, spanGap_cons hblank, ih, widenGap_widenGap]
      rfl
  | @line text cs htext _ ih =>
      obtain ⟨htake, hdrop⟩ := takeWhile_append_of_head (p := (· ≠ '\n')) text ('\n' :: cs ++ rest)
        (fun c hc => by
          rw [decide_eq_true_eq]
          rintro rfl
          exact htext hc)
        (by simp)
      have happend : '/' :: '/' :: text ++ '\n' :: cs ++ rest =
          '/' :: '/' :: (text ++ ('\n' :: cs ++ rest)) := by simp
      rw [happend, spanGap_line, htake, hdrop, ih, widenGap_widenGap]
  | lastLine hend => exact hend.elim
  | @block text cs htext _ ih =>
      have hcomment := spanBlockComment_append_of_not_infix htext (cs ++ rest)
      have happend : '/' :: '*' :: text ++ '*' :: '/' :: cs ++ rest =
          '/' :: '*' :: (text ++ '*' :: '/' :: (cs ++ rest)) := by simp
      rw [happend, spanGap_block hcomment, ih, widenGap_widenGap]
      simp

lemma IsGap.append {gap gap' : List Char} (h : IsGap False gap) (h' : IsGap False gap') :
    IsGap False (gap ++ gap') := by
  induction h with
  | nil => exact h'
  | blank hc _ ih => exact .blank hc ih
  | line htext _ ih => simpa using IsGap.line htext ih
  | lastLine hend => exact hend.elim
  | block htext _ ih => simpa using IsGap.block htext ih

/-- What a gap begins with ends a token. -/
lemma IsGap.endsToken {gap : List Char} (h : IsGap False gap) (hne : gap ≠ []) (after : List Char) :
    EndsToken (gap ++ after) := by
  cases h with
  | nil => exact absurd rfl hne
  | blank hc _ =>
      intro c hhead
      rw [← Option.some.inj hhead]
      exact List.mem_append_left ['/', '\x7b', '\x7d', '@'] hc
  | line htext _ => simp [EndsToken, boundaries]
  | lastLine hend _ => exact hend.elim
  | block htext _ => simp [EndsToken, boundaries]

/-- A token sees no difference if a gap is put after it. -/
lemma IsGap.sameAhead {gap : List Char} (h : IsGap False gap) (after : List Char) :
    SameAhead after (gap ++ after) := by
  by_cases hne : gap = []
  · subst hne
    exact .refl after
  · exact .stop (h.endsToken hne after)

/-! ### Blanks -/

/-- The information separators. -/
def separatorRanges : Text.CodeTable where
  ranges := [(0x1C, 0x1F)]
  ordered := rfl

lemma isBlank_eq (c : Char) :
    Text.isBlank c = (Text.whiteSpaceRanges.contains c || separatorRanges.contains c) := by
  simp [Text.isBlank, Text.isWhiteSpace, separatorRanges, Text.CodeTable.contains, Text.inRanges]

/-- A character of a table that meets neither the white space nor the separators is no blank. -/
lemma not_isBlank_of_contains {table : Text.CodeTable} {c : Char} (h : table.contains c = true)
    (hspace : rangesApart table.ranges Text.whiteSpaceRanges.ranges = true)
    (hseparator : rangesApart table.ranges separatorRanges.ranges = true) :
    Text.isBlank c = false := by
  rw [isBlank_eq, not_contains_of_apart hspace h, not_contains_of_apart hseparator h]
  rfl

lemma not_isBlank_of_isLetter {c : Char} (h : Text.isLetter c = true) : Text.isBlank c = false :=
  not_isBlank_of_contains h (by decide +kernel) (by decide +kernel)

lemma not_isBlank_of_isDigit {c : Char} (h : Text.isDigit c = true) : Text.isBlank c = false := by
  rw [isDigit_eq, Bool.or_eq_true] at h
  rcases h with h | h <;>
    exact not_isBlank_of_contains h (by decide +kernel) (by decide +kernel)

lemma not_isBlank_of_isIdentifierStart {c : Char} (h : isIdentifierStart c = true) :
    Text.isBlank c = false := by
  simp only [isIdentifierStart, Bool.or_eq_true, decide_eq_true_eq] at h
  obtain ((rfl | rfl) | h) | h := h
  · decide
  · decide
  · exact not_isBlank_of_isLetter h
  · exact not_isBlank_of_contains h (by decide +kernel) (by decide +kernel)

lemma not_isBlank_of_ofChar? {c : Char} {s : Symbol} (h : Symbol.ofChar? c = some s) :
    Text.isBlank c = false := by
  have hmem := ofChar?_ne_none (by rw [h]; simp : Symbol.ofChar? c ≠ none)
  have hall : ['\x7b', '\x7d', '[', ']', '(', ')', ',', '.', '=', '@', '*'].all
      (!Text.isBlank ·) = true := by decide
  simpa using List.all_eq_true.mp hall c hmem

/-- No token begins with a blank. -/
lemma not_isBlank_of_scanToken {context : Context} {c : Char} {cs after : List Char} {lexeme : Lexeme}
    (h : scanToken context c cs = .ok (lexeme, after)) : Text.isBlank c = false := by
  cases scanToken_eq_ok_iff.mp h with
  | location huri hc => exact hc
  | pattern | arrow | negative => decide
  | symbol huri hs => exact not_isBlank_of_ofChar? hs
  | string huri hquote => rcases hquote with rfl | rfl <;> decide
  | number huri hc => exact not_isBlank_of_isDigit hc
  | word huri hword =>
      rcases starts_of_spanWord? hword with rfl | hstart
      · decide
      · exact not_isBlank_of_isIdentifierStart hstart

/-! ### Places -/

/-- A text goes on to another line or along the same one. -/
lemma Place.after_later (p : Place) (text : List Char) : p.line < (p.after text).line ∨
    p.line = (p.after text).line ∧ p.column + text.length = (p.after text).column := by
  induction text generalizing p with
  | nil => exact .inr ⟨rfl, rfl⟩
  | cons c text ih =>
      have hlater : (p.next c).line < (p.after (c :: text)).line ∨
          (p.next c).line = (p.after (c :: text)).line ∧
            (p.next c).column + text.length = (p.after (c :: text)).column := ih (p.next c)
      by_cases hc : c = '\n' <;>
        simp only [Place.next, hc, if_true, if_false, List.length_cons] at hlater ⊢ <;> omega

/-- So it comes back to a place only without any text. -/
lemma Place.eq_nil_of_after {p : Place} {text : List Char} (h : p.after text = p) : text = [] := by
  have hlater := p.after_later text
  rw [h] at hlater
  rw [List.eq_nil_iff_length_eq_zero]
  omega

/-- A place belongs to one character of a text. -/
lemma eq_of_after_eq {before before' after after' : List Char}
    (happend : before ++ after = before' ++ after')
    (hplace : Place.start.after before = Place.start.after before') : before = before' := by
  rcases List.append_eq_append_iff.mp happend with ⟨middle, rfl, -⟩ | ⟨middle, rfl, -⟩
  · rw [Place.after_append] at hplace
    rw [Place.eq_nil_of_after hplace.symm, List.append_nil]
  · rw [Place.after_append] at hplace
    rw [Place.eq_nil_of_after hplace, List.append_nil]

/-! ### Texts -/

/-- Each token of a text has a character that it begins with. If blanks and comments are put before
it, the text is scanned to the same words. -/
lemma exists_insertion {context : Context} {place stop : Place} {cs : List Char} {tokens : List Token}
    (h : scanTokens context place cs = .ok (tokens, stop)) {t : Token} (ht : t ∈ tokens) :
    ∃ before c after, cs = before ++ c :: after ∧ t.place = place.after before ∧
      Text.isBlank c = false ∧ ∀ gap, IsGap False gap →
        ScansIn context (before ++ (gap ++ c :: after)) (tokens.map Token.word) [] := by
  fun_induction scanTokens context place cs generalizing tokens stop with
  | case1 => cases h
  | case2 =>
      cases h
      cases ht
  | case3 => cases h
  | case4 => cases h
  | case5 context place cs gap c cs' hgap place' lexeme rest htoken tokens' stop' hrest =>
      rename_i ih
      cases h
      have hskipped : IsGap False gap := by simpa using isGap_of_spanGap hgap
      have hfirst : ∀ rest', SameAhead rest rest' →
          (context.expectsUri = true → ∀ d ∈ rest'.head?, Text.isBlank d = true) →
          ScansIn context (lexeme.text ++ rest') [⟨lexeme.kind, lexeme.value⟩] rest' :=
        fun rest' hahead huri =>
          .word (scannedAs_of_scanToken (not_opensGap_of_spanGap hgap) htoken hahead huri)
      have hcs := spanGap_append hgap
      have hsplit := (scanToken_append htoken).1
      -- the gap is put before the first token, or before one of those scanned after it
      rcases List.mem_cons.mp ht with rfl | ht
      · refine ⟨gap, c, cs', hcs.symm, rfl, not_isBlank_of_scanToken htoken, fun gap' hgap' => ?_⟩
        have hothers := scansIn_of_scanTokens hrest (isScanned_of_scanTokens hrest).2
          (fun _ _ => id) breaksLine_nil
        rw [List.append_nil] at hothers
        rw [← List.append_assoc, ← hsplit]
        exact .gap ((hskipped.append hgap').spanGap_append _)
          ((hfirst rest (.refl rest) fun huri => isBlank_of_expectsUri huri htoken).trans hothers)
      · obtain ⟨before, d, after, rfl, hplace, hblank, hinsert⟩ := ih hrest ht
        refine ⟨gap ++ (lexeme.text ++ before), d, after, ?_, ?_, hblank, fun gap' hgap' => ?_⟩
        · rw [← hcs, ← hsplit]
          simp only [List.append_assoc]
        · rw [hplace, Place.after_append, Place.after_append]
        -- after a location there is a blank, and it stands before the gap that is put in
        · have huri : context.expectsUri = true →
              ∀ e ∈ (before ++ (gap' ++ d :: after)).head?, Text.isBlank e = true := by
            intro hexpects e he
            have hhead := isBlank_of_expectsUri hexpects htoken
            cases before with
            | nil => simp [hblank] at hhead
            | cons b before =>
                obtain rfl : b = e := by simpa using he
                exact hhead b (by simp)
          rw [List.append_assoc, List.append_assoc]
          exact .gap (hskipped.spanGap_append _)
            ((hfirst _ ((hgap'.sameAhead _).append before) huri).trans (hinsert gap' hgap'))

end Concerto
