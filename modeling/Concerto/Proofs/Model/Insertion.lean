import Concerto.Proofs.Model.Retracing
import Concerto.Proofs.Model.Soundness
import Concerto.Proofs.Token.Insertion

/-!
What a text says with more blanks and comments in it.

* `Model.parse_of_words_eq`: texts with the same words denote the same model;
* `tokenize_insertion`: if blanks and comments are put before a token of a text, the words stay as they
  are, and so does the model.
-/

namespace Concerto

/-- A text denotes the model that other tokens with the same words are read as. -/
lemma Model.parse_of_words {source : String} {tokens tokens' : List Token} {stop stop' : Place}
    {m : Model} {s : TokenStream} (hrun : Parser.model ⟨tokens, stop⟩ = .ok (m, s))
    (hscan : scanTokens .start .start source.toList = .ok (tokens', stop'))
    (hwords : tokens'.map Token.word = tokens.map Token.word) : Model.parse source = .ok m := by
  obtain ⟨taken, htaken, hreads⟩ := Parser.advances_model.retraces _ _ _ hrun
  obtain ⟨m', s', hrun', -, rfl⟩ := hreads ⟨tokens', stop'⟩ s.words (hwords.trans htaken) rfl
  exact parse_of_run hscan hrun'

/-- Of a text, the model depends on the words only. -/
lemma Model.parse_of_words_eq {source source' : String} {tokens tokens' : List Token}
    {stop stop' : Place} (hscan : scanTokens .start .start source.toList = .ok (tokens, stop))
    (hscan' : scanTokens .start .start source'.toList = .ok (tokens', stop'))
    (hwords : tokens'.map Token.word = tokens.map Token.word) {m : Model}
    (h : Model.parse source = .ok m) : Model.parse source' = .ok m := by
  obtain ⟨tokens₁, stop₁, s, hscan₁, hrun, -⟩ := run_of_parse h
  rw [hscan] at hscan₁
  cases hscan₁
  exact parse_of_words hrun hscan' hwords

/-- A token that does not mark the end of a text begins after `before`. If blanks and comments are put
there, the tokens of the text are the same but for their places, and it denotes the same model or, as
before, none. -/
theorem tokenize_insertion {before gap after : String} {tokens : List Token} {t : Token}
    (h : tokenize (before ++ after) = .ok tokens) (ht : t ∈ tokens) (hkind : t.kind ≠ .eof)
    (hplace : t.place = placeOf (before ++ after).toList before.toList.length)
    (hgap : IsGap False gap.toList) :
    (∃ tokens', tokenize (before ++ gap ++ after) = .ok tokens' ∧
      tokens'.map Token.word = tokens.map Token.word) ∧
    ∀ m, Model.parse (before ++ gap ++ after) = .ok m ↔ Model.parse (before ++ after) = .ok m := by
  obtain ⟨scanned, stop, hscan, rfl⟩ := tokenize_eq_ok.mp h
  have ht : t ∈ scanned := by
    rcases List.mem_append.mp ht with ht | ht
    · exact ht
    · exact absurd (by rw [List.mem_singleton.mp ht]) hkind
  obtain ⟨before', c, after', hsource, hplace', -, hinsert⟩ := exists_insertion hscan ht
  -- the place tells which character the token begins with
  have hsame : before.toList = before' := by
    rw [String.toList_append] at hsource
    refine eq_of_after_eq hsource ?_
    rw [← hplace', hplace, String.toList_append, placeOf_append]
  subst hsame
  have hafter : after.toList = c :: after' := by
    rwa [String.toList_append, List.append_cancel_left_eq] at hsource
  obtain ⟨scanned', stop', hwords, hscan'⟩ := (hinsert gap.toList hgap).scanTokens_eq .start
  have hscan' : scanTokens .start .start (before ++ gap ++ after).toList = .ok (scanned', stop') := by
    simpa [hafter] using hscan'
  refine ⟨⟨_, tokenize_eq_ok.mpr ⟨scanned', stop', hscan', rfl⟩, by simp [hwords, Token.word]⟩,
    fun m => ⟨fun hparse => ?_, fun hparse => ?_⟩⟩
  · exact Model.parse_of_words_eq hscan' hscan hwords.symm hparse
  · exact Model.parse_of_words_eq hscan hscan' hwords hparse

/-- A text up to the location of its import. -/
def beforeLocation : String := "namespace a import b.C from "

/-- Two comments with a star and slashes where they meet, a byte order mark and a line break. -/
def slashedGap : String := "/*/*///*\n\uFEFF"

theorem tokenize_insertion_sample :
    ∃ tokens, tokenize (beforeLocation ++ "u:1") = .ok tokens ∧ ⟨.uri, "u:1", ⟨1, 29⟩⟩ ∈ tokens ∧
      TokenKind.uri ≠ .eof ∧
      (⟨1, 29⟩ : Place) = placeOf (beforeLocation ++ "u:1").toList beforeLocation.toList.length ∧
      IsGap False slashedGap.toList ∧
      ((∃ tokens', tokenize (beforeLocation ++ slashedGap ++ "u:1") = .ok tokens' ∧
          tokens'.map Token.word = tokens.map Token.word) ∧
        ∀ m, Model.parse (beforeLocation ++ slashedGap ++ "u:1") = .ok m ↔
          Model.parse (beforeLocation ++ "u:1") = .ok m) := by
  have hmem : ⟨.uri, "u:1", ⟨1, 29⟩⟩ ∈ (tokenize (beforeLocation ++ "u:1")).toOption.getD [] := by
    decide +kernel
  have hkind : TokenKind.uri ≠ .eof := by decide
  have hplace : (⟨1, 29⟩ : Place) =
      placeOf (beforeLocation ++ "u:1").toList beforeLocation.toList.length := by
    decide +kernel
  have hcomments : IsGap False
      ('/' :: '*' :: ['/'] ++ '*' :: '/' :: ('/' :: '/' :: ['*'] ++ '\n' :: ['\uFEFF'])) :=
    .block (by decide) (.line (by decide) (.blank (by decide) (.blank (by decide) .nil)))
  have hgap : IsGap False slashedGap.toList := hcomments
  cases h : tokenize (beforeLocation ++ "u:1") with
  | error e => simp [h, Except.toOption] at hmem
  | ok tokens =>
      have ht : ⟨.uri, "u:1", ⟨1, 29⟩⟩ ∈ tokens := by simpa [h, Except.toOption] using hmem
      exact ⟨tokens, rfl, ht, hkind, hplace, hgap, tokenize_insertion h ht hkind hplace hgap⟩

end Concerto
