import Concerto.Proofs.Model.RoundTrip

/-!
The numbers of a model in its source text.

* `Numeral.IsToldBy`: a word is a number token with the value of a number;
* `Numeral.readsBack_iff`: the text of a number is one such token, unless the number is a double that is
  not finite or has too many digits;
* `Model.words_of_tokenize`: a source text that can be scanned has the words of its model;
* `Model.numbers_of_parse`: so the numbers of a model that has been read are the number tokens of its
  source text, and told by them, except for infinite doubles.
-/

namespace Concerto

/-! ### Texts that may be scanned -/

namespace Scans

variable {sure : Prop} {text rest : List Char} {words : List Word}

/-- A text that is sure to be scanned under a condition is sure to be scanned if this is met. -/
lemma of_sure (h : Scans sure text words rest) (hsure : sure) : Scans True text words rest where
  scansIn context hmode :=
    (h.scansIn context hmode).imp_right fun ⟨hnot, _⟩ => absurd hsure hnot
  noReturn := h.noReturn

/-- If there are tokens in a text, they are the words that it is scanned to. -/
lemma words_of_tokenize {source : String} (h : Scans sure source.toList words [])
    (hmode : (ImportMode.outside.run (Word.kinds words)).isSome) {tokens : List Token}
    (htokens : tokenize source = .ok tokens) : tokens.map Token.word = words ++ [.eof] := by
  obtain ⟨before, stop, hscan, rfl⟩ := tokenize_eq_ok.mp htokens
  rcases h.scanTokens_eq hmode with ⟨tokens, stop', rfl, hscan'⟩ | ⟨-, e, herror⟩
  · rw [hscan] at hscan'
    cases hscan'
    exact List.map_append
  · rw [hscan] at herror
    cases herror

end Scans

/-! ### Single numbers -/

namespace Numeral

/-- The word is a number token of which the value is the number: one of either kind for a double, and
one of a whole number for a whole number. -/
def IsToldBy : Numeral → Word → Prop
  | double d, w => (w.kind = .integer ∨ w.kind = .float) ∧ readDouble w.value = .ok d
  | integer i, w => w.kind = .integer ∧ readInteger w.value = .ok i

/-- The text of the number is one token, which tells the number. -/
def ReadsBack (n : Numeral) : Prop :=
  ∃ tokens w, tokenize n.text = .ok tokens ∧ tokens.map Token.word = [w, .eof] ∧ n.IsToldBy w

variable {n : Numeral}

@[simp] lemma isNumber_word (n : Numeral) : n.word.isNumber = n.isFinite := by
  cases n with
  | integer i => rfl
  | double d => cases h : d.isFinite <;> simp [word, kind, isFinite, h, Word.isNumber]

lemma IsToldBy.isNumber {w : Word} (h : n.IsToldBy w) : w.isNumber = true := by
  cases n with
  | double d => simpa [Word.isNumber] using h.1
  | integer i => simpa [Word.isNumber] using Or.inl h.1

/-- The word for a number tells it if and only if it can be read back. -/
lemma isToldBy_word : n.IsToldBy n.word ↔ n.IsPlain := by
  constructor
  · intro h
    cases n with
    | double d =>
        have hfinite := h.isNumber
        rwa [isNumber_word] at hfinite
    | integer i => exact isReadable_of_readInteger h.2
  · intro h
    cases n with
    | double d =>
        have hfinite : d.isFinite = true := h
        exact ⟨.inr (by simp [word, kind, hfinite]), Double.readDouble_text h⟩
    | integer i => exact ⟨rfl, readInteger_integerText h⟩

lemma isSome_run_word (n : Numeral) : (ImportMode.outside.run (Word.kinds [n.word])).isSome := by
  cases n with
  | integer i => rfl
  | double d => cases h : d.isFinite <;> simp [word, kind, h, ImportMode.run, ImportMode.admits]

/-- The text of a number is scanned as its word, if it can be scanned. -/
lemma scans_text (n : Numeral) : Scans n.IsPlain n.text.toList [n.word] [] := by
  have hscans := scans_numeral n (id : n.IsPlain → n.IsPlain) (fun c hc => nomatch hc : Breaks [])
  rwa [List.append_nil] at hscans

/-- The text of a number is one token that tells it, if and only if the number is no double that is not
finite and does not have too many digits. -/
theorem readsBack_iff : n.ReadsBack ↔ n.IsPlain := by
  constructor
  · rintro ⟨tokens, w, htokens, hwords, htold⟩
    have hword := n.scans_text.words_of_tokenize n.isSome_run_word htokens
    rw [hwords, List.singleton_append, List.cons.injEq] at hword
    exact isToldBy_word.mp (hword.1 ▸ htold)
  · intro h
    obtain ⟨tokens, htokens, hwords⟩ := (n.scans_text.of_sure h).exists_tokenize n.isSome_run_word
    exact ⟨tokens, n.word, htokens, hwords, isToldBy_word.mpr h⟩

end Numeral

/-! ### Numbers of models -/

namespace Model

variable {source : String} {m : Model}

/-- If there are tokens in the source text of a model that has been read, they are the words of the
model. -/
lemma words_of_tokenize (h : Model.parse source = .ok m) {tokens : List Token}
    (htokens : tokenize m.toSource = .ok tokens) : tokens.map Token.word = m.words ++ [.eof] := by
  obtain ⟨_, _, _, _, hscan, hwords, hread⟩ := exists_of_parse h
  obtain ⟨mode, hmode⟩ := isSome_run_of_scanTokens hscan hwords
  have hscans : Scans (∀ n ∈ m.numerals, n.IsPlain) m.toSource.toList m.words [] :=
    scans_toSource hread.ns hread.imports hread.declarations id
  refine hscans.words_of_tokenize ?_ htokens
  rw [hread.standsFor.mode _ _ hmode]
  rfl

/-- A number of a model that has been read can be read back unless it is an infinite double. -/
lemma isPlain_iff_of_parse (h : Model.parse source = .ok m) {n : Numeral} (hn : n ∈ m.numerals) :
    n.IsPlain ↔ n.isFinite = true := by
  obtain ⟨_, _, _, _, -, -, hread⟩ := exists_of_parse h
  cases n with
  | double d => rfl
  | integer i => exact iff_of_true (hread.standsFor.readable i hn) rfl

/-- The text of a number of a model that has been read is a number token with the value of the number,
unless the number is an infinite double. The number tokens of the source text tell the other
numbers, one after the other; and there are tokens in the source text if no number is infinite. -/
theorem numbers_of_parse (h : Model.parse source = .ok m) :
    (∀ n ∈ m.numerals, n.ReadsBack ↔ n.isFinite = true) ∧
    (∀ tokens, tokenize m.toSource = .ok tokens →
      List.Forall₂ Numeral.IsToldBy (m.numerals.filter Numeral.isFinite)
        ((tokens.map Token.word).filter Word.isNumber)) ∧
    (m.IsFinite → ∃ tokens, tokenize m.toSource = .ok tokens) := by
  refine ⟨fun n hn => Numeral.readsBack_iff.trans (isPlain_iff_of_parse h hn), ?_, fun hfinite => ?_⟩
  · intro tokens htokens
    have heof : [Word.eof].filter Word.isNumber = [] := rfl
    have hfinite : Word.isNumber ∘ Numeral.word = Numeral.isFinite :=
      funext Numeral.isNumber_word
    rw [words_of_tokenize h htokens, List.filter_append, heof, List.append_nil, m.listsNumbers,
      List.filter_map, hfinite, List.forall₂_map_right_iff, List.forall₂_same]
    intro n hn
    obtain ⟨hmem, hn⟩ := List.mem_filter.mp hn
    exact Numeral.isToldBy_word.mpr ((isPlain_iff_of_parse h hmem).mpr hn)
  · obtain ⟨hspellable, -⟩ := isSpellable_of_parse h hfinite
    obtain ⟨tokens, htokens, -⟩ := hspellable.scans.exists_tokenize hspellable.mode
    exact ⟨tokens, htokens⟩

/-- A text with numbers of all kinds. -/
def numbersText : String :=
  "namespace a @d(1E22, -0) concept C \x7bo Long n default=-007 o Double x range=[0.1,]\x7d"

theorem numbers_of_parse_numbersText :
    ∃ m, Model.parse numbersText = .ok m ∧ m.IsFinite ∧ m.numerals.length = 4 ∧
      (∀ n ∈ m.numerals, n.ReadsBack) ∧ ∃ tokens, tokenize m.toSource = .ok tokens ∧
        List.Forall₂ Numeral.IsToldBy m.numerals
          ((tokens.map Token.word).filter Word.isNumber) := by
  have hcount : (Model.parse numbersText).map (fun m => (decide m.IsFinite, m.numerals.length)) =
      .ok (true, 4) := by decide +kernel
  obtain ⟨m, hparse, hm⟩ := map_eq_ok.mp hcount
  obtain ⟨hdecide, hlength⟩ := Prod.mk.inj hm
  have hfinite : m.IsFinite := of_decide_eq_true hdecide
  have hall : ∀ n ∈ m.numerals, n.isFinite = true := by
    intro n hn
    cases n with
    | double d => exact hfinite d hn
    | integer i => rfl
  obtain ⟨hback, htold, hscan⟩ := numbers_of_parse hparse
  obtain ⟨tokens, htokens⟩ := hscan hfinite
  have hwords := htold tokens htokens
  rw [List.filter_eq_self.mpr hall] at hwords
  exact ⟨m, hparse, hfinite, hlength, fun n hn => (hback n hn).mpr (hall n hn), tokens, htokens,
    hwords⟩

/-- A text with a number that is too large for a finite double. -/
def infiniteText : String := "namespace a @d(1e999) concept C \x7b\x7d"

/-- The model of the text has a number that is not read back from its text. -/
theorem not_readsBack_infiniteText :
    ∃ m, Model.parse infiniteText = .ok m ∧ ∃ n ∈ m.numerals, ¬n.ReadsBack := by
  have hnumerals : (Model.parse infiniteText).map numerals = .ok [.double (.infinite false)] := by
    decide +kernel
  obtain ⟨m, hparse, hm⟩ := map_eq_ok.mp hnumerals
  refine ⟨m, hparse, .double (.infinite false), by simp [hm], ?_⟩
  rw [Numeral.readsBack_iff]
  decide

end Model

end Concerto
