import Concerto.Proofs.Outcome
import Concerto.Proofs.Token.Insertion
import Mathlib.Data.List.Infix

/-!
Scanning a text up to a place in it.

* `Reaches`: the scanner takes some words from a text, and has come to what is left right after the last
  of them;
* `Reaches.of_scanTokens`: so it has at the end of a text that ends with a token;
* `Reaches.extend`, `Reaches.inContext`: so it does if more text follows, and in another context;
* `Spelled`, `Written`: things that are spelled with words, and a list of them with gaps before each;
* `Written.reaches`: where the words of all of them may stand, they are scanned from the text, if none of
  them runs together with what follows;
* `ScansIn.exists_rest`, `exists_uri`: what is scanned from there on, and that nothing but a location is
  where one is expected.
-/

namespace Concerto

/-! ### Up to a place -/

/-- From the beginning of the text the scanner takes the words, and leaves `rest`, which begins right
after the last of them. -/
inductive Reaches : Context → List Char → List Word → List Char → Prop
  | here {context : Context} {rest : List Char} : Reaches context rest [] rest
  | word {context : Context} {gap text after rest : List Char} {w : Word} {words : List Word}
      (hgap : IsGap False gap) (hword : ScannedAs context text w after)
      (h : Reaches (context.push w.kind) after words rest) :
      Reaches context (gap ++ (text ++ after)) (w :: words) rest

/-- The text goes on with a token, after a gap if there is one. -/
def HasToken (text : List Char) : Prop :=
  ∃ gap c cs, IsGap False gap ∧ opensGap (c :: cs) = false ∧ text = gap ++ c :: cs

namespace Reaches

variable {context : Context} {text middle rest : List Char} {words words' : List Word}

lemma trans (h : Reaches context text words middle)
    (h' : Reaches (context.pushAll words) middle words' rest) :
    Reaches context text (words ++ words') rest := by
  induction h with
  | here => exact h'
  | word hgap hword _ ih => exact .word hgap hword (ih h')

lemma scansIn (h : Reaches context text words rest) : ScansIn context text words rest := by
  induction h with
  | here => exact .refl _
  | word hgap hword _ ih => exact .gap (hgap.spanGap_append _) ((ScansIn.word hword).trans ih)

/-- Before the first word there may be a gap. -/
lemma gap {gap : List Char} (hgap : IsGap False gap) (hne : words ≠ [])
    (h : Reaches context text words rest) : Reaches context (gap ++ text) words rest := by
  cases h with
  | here => exact absurd rfl hne
  | @word _ gap' text' after _ w words hgap' hword h =>
      rw [← List.append_assoc]
      exact .word (hgap.append hgap') hword h

lemma hasToken (h : Reaches context text words rest) (hne : words ≠ []) : HasToken text := by
  cases h with
  | here => exact absurd rfl hne
  | @word _ gap text' after _ w words hgap hword h =>
      obtain ⟨hopens, c, cs, rfl, -⟩ := hword
      exact ⟨gap, c, cs ++ after, hgap, hopens, rfl⟩

/-- A text that is empty is no word. -/
lemma eq_nil_of_nil (h : Reaches context [] words rest) : words = [] := by
  by_contra hne
  obtain ⟨gap, c, cs, -, -, heq⟩ := h.hasToken hne
  simp at heq

/-- All words of a text are scanned if more text ends the last of them. -/
lemma extend {more : List Char} (h : Reaches context text words []) (hends : EndsToken more)
    (hlast : ∀ w ∈ words.getLast?, w.kind ≠ .uri) : Reaches context (text ++ more) words more := by
  generalize hrest : ([] : List Char) = rest at h
  induction h with
  | here =>
      subst hrest
      exact .here
  | @word context gap text after rest w words hgap hword h ih =>
      subst hrest
      obtain ⟨hopens, c, cs, rfl, htoken⟩ := hword
      -- a location lasts up to a blank, so nothing may be added behind one
      have hblank : context.expectsUri = true → ∀ d ∈ (after ++ more).head?, Text.isBlank d = true := by
        intro hexpects d hd
        cases after with
        | nil =>
            obtain rfl := h.eq_nil_of_nil
            exact absurd ((isScanned_of_scanToken hopens htoken).1.mp hexpects) (hlast w rfl)
        | cons e after => exact isBlank_of_expectsUri hexpects htoken d hd
      have hscanned := scannedAs_of_scanToken hopens htoken (hends.sameAhead after) hblank
      have hothers := ih (fun w' hw' => by
        cases words with
        | nil => simp at hw'
        | cons v vs => exact hlast w' (by simpa [List.getLast?_cons_cons] using hw')) rfl
      have hparts : gap ++ (c :: cs ++ after) ++ more = gap ++ (c :: cs ++ (after ++ more)) := by simp
      rw [hparts]
      exact .word hgap hscanned hothers

/-- They are scanned in another context too, if locations and patterns are expected where they have been
found. -/
lemma inContext {context' : Context} (h : Reaches context text words rest)
    (hmode : (context'.mode.run (Word.kinds words)).isSome)
    (hpattern : ∀ before, before <+: words → (context.pushAll before).expectsPattern = true →
      (context'.pushAll before).expectsPattern = true) : Reaches context' text words rest := by
  induction h generalizing context' with
  | here => exact .here
  | @word context gap text after rest w words hgap hword h ih =>
      obtain ⟨mode, hmode⟩ := Option.isSome_iff_exists.mp hmode
      simp only [Word.kinds_cons, ImportMode.run, Option.ite_none_right_eq_some,
        ← ImportMode.mode_push] at hmode
      obtain ⟨hadmits, hmode⟩ := hmode
      obtain ⟨hopens, c, cs, rfl, htoken⟩ := hword
      -- both contexts expect a location if and only if the word is one
      have huri : context'.expectsUri = context.expectsUri := by
        rw [Bool.eq_iff_iff, (isScanned_of_scanToken hopens htoken).1]
        exact (ImportMode.admits_iff context' _).mp hadmits
      have htoken' := scanToken_congr huri (hpattern [] (by simp)) htoken
      refine .word hgap ⟨hopens, c, cs, rfl, htoken'⟩ (ih (by rw [hmode]; rfl) fun before hbefore => ?_)
      exact hpattern (w :: before) (List.cons_prefix_cons.mpr ⟨rfl, hbefore⟩)

/-- Up to the gap that a text ends with, its tokens are scanned. -/
lemma exists_of_scanTokens {place stop : Place} {tokens : List Token}
    (h : scanTokens context place text = .ok (tokens, stop)) :
    ∃ rest, rest <:+ text ∧ spanGap rest = .ok (rest, []) ∧
      Reaches context text (tokens.map Token.word) rest := by
  fun_induction scanTokens context place text generalizing tokens stop with
  | case1 => cases h
  | case2 context place text gap hgap =>
      cases h
      have htext := spanGap_append hgap
      rw [List.append_nil] at htext
      subst htext
      exact ⟨gap, List.suffix_rfl, hgap, .here⟩
  | case3 => cases h
  | case4 => cases h
  | case5 context place text gap c cs hgap place' lexeme after htoken tokens' stop' hafter =>
      rename_i ih
      cases h
      obtain ⟨rest, hsuffix, hrest, hreaches⟩ := ih hafter
      -- what is left after a gap opens no other one, so the token is scanned there
      have hskipped : IsGap False gap := by simpa using isGap_of_spanGap hgap
      have hscanned := scannedAs_of_scanToken (not_opensGap_of_spanGap hgap) htoken (.refl after)
        fun huri => isBlank_of_expectsUri huri htoken
      have htext : text = gap ++ (lexeme.text ++ after) := by
        rw [(scanToken_append htoken).1, spanGap_append hgap]
      rw [htext, ← List.append_assoc]
      refine ⟨rest, hsuffix.trans (List.suffix_append _ _), hrest, ?_⟩
      rw [List.append_assoc]
      exact .word hskipped hscanned hreaches

/-- A text that does not end with a gap. -/
def endsWithToken (text : List Char) : Bool :=
  text.tails.all fun rest => rest = [] || (spanGap rest).toOption ≠ some (rest, [])

/-- Such a text ends with the last of its tokens. -/
lemma of_scanTokens (hends : endsWithToken text = true)
    (h : (scanTokens context .start text).toOption.map (fun r => r.1.map Token.word) = some words) :
    Reaches context text words [] := by
  obtain ⟨⟨tokens, stop⟩, hscan, rfl⟩ := Option.map_eq_some_iff.mp h
  cases hok : scanTokens context .start text with
  | error e => simp [hok, Except.toOption] at hscan
  | ok scanned =>
      rw [hok] at hscan
      cases Option.some.inj hscan
      obtain ⟨rest, hsuffix, hgap, hreaches⟩ := exists_of_scanTokens hok
      have hall := List.all_eq_true.mp hends rest ((List.mem_tails rest text).mpr hsuffix)
      obtain rfl : rest = [] := by simpa [hgap, Except.toOption] using hall
      exact hreaches

end Reaches

/-! ### Lists -/

section Lists

variable {ι : Type} {words : ι → List Word}

/-- The last of the words is no location, and no equals sign either. -/
def Closes (words : List Word) : Prop :=
  ∀ w ∈ words.getLast?, w.kind ≠ .uri ∧ w.kind ≠ .symbol .equals

lemma Closes.append {words words' : List Word} (h : Closes words) (h' : Closes words') :
    Closes (words ++ words') := by
  intro w hw
  rw [List.getLast?_append, Option.mem_def, Option.or_eq_some_iff] at hw
  rcases hw with hw | ⟨-, hw⟩
  · exact h' w hw
  · exact h w hw

/-- No pattern begins right after such words. -/
lemma Closes.last_pushAll {words : List Word} (h : Closes words) :
    (Context.start.pushAll words).last ≠ some (.symbol .equals) := by
  induction words using List.reverseRecOn with
  | nil => simp [Context.pushAll, Context.start]
  | append_singleton words w _ =>
      have hw := (h w (by simp)).2
      simpa [Context.pushAll, Context.push] using hw

/-- Words that begin and end like a part of a statement. -/
structure StandsAlone (words : List Word) : Prop where
  first : ∃ w ws, words = w :: ws ∧ w.kind ≠ .symbol .equals
  last : Closes words

lemma StandsAlone.ne_nil {words : List Word} (h : StandsAlone words) : words ≠ [] := by
  obtain ⟨w, ws, rfl, -⟩ := h.first
  simp

/-- Something with the text that spells it, from its first word to its last. -/
structure Spelled (words : ι → List Word) where
  item : ι
  text : List Char
  reaches : Reaches .start text (words item) []

/-- The words of some things, one after another. -/
def wordsOf (items : List (Spelled words)) : List Word := items.flatMap fun x => words x.item

@[simp] lemma wordsOf_nil : wordsOf ([] : List (Spelled words)) = [] := rfl

@[simp] lemma wordsOf_cons (x : Spelled words) (items : List (Spelled words)) :
    wordsOf (x :: items) = words x.item ++ wordsOf items := List.flatMap_cons

lemma wordsOf_eq (items : List (Spelled words)) :
    wordsOf items = (items.map Spelled.item).flatMap words :=
  (List.flatMap_map _ _ _).symm

lemma closes_wordsOf (hwords : ∀ x, StandsAlone (words x)) (items : List (Spelled words)) :
    Closes (wordsOf items) := by
  induction items with
  | nil => simp [Closes]
  | cons x items ih =>
      rw [wordsOf_cons]
      exact (hwords x.item).last.append ih

/-- Some things are written one after another, each after blanks or comments. -/
inductive Written : List (Spelled words) → List Char → Prop
  | nil : Written [] []
  | cons {gap text : List Char} {x : Spelled words} {items : List (Spelled words)}
      (hgap : IsGap False gap) (hne : gap ≠ []) (h : Written items text) :
      Written (x :: items) (gap ++ (x.text ++ text))

/-- None of the things runs together with the text after it. -/
def Apart (items : List (Spelled words)) (after : List Char) : Prop :=
  ∀ x ∈ items, Reaches .start (x.text ++ after) (words x.item) after

/-- They do not if that text ends a word. -/
lemma EndsToken.apart {after : List Char} (h : EndsToken after) (hwords : ∀ x, StandsAlone (words x))
    (items : List (Spelled words)) : Apart items after :=
  fun x _ => x.reaches.extend h fun w hw => ((hwords x.item).last w hw).1

namespace Written

variable {items : List (Spelled words)} {text after : List Char}

lemma eq_of_nil {text : String} (h : Written ([] : List (Spelled words)) text.toList) : text = "" := by
  rw [← String.toList_inj]
  generalize text.toList = chars at h
  cases h
  rfl

lemma endsToken (h : Written items text) (hafter : items = [] → EndsToken after) :
    EndsToken (text ++ after) := by
  cases h with
  | nil => exact hafter rfl
  | cons hgap hne _ =>
      rw [List.append_assoc]
      exact hgap.endsToken hne _

/-- Where their words may stand, all of them are scanned. -/
lemma reaches (hwords : ∀ x, StandsAlone (words x)) (h : Written items text)
    (hafter : Apart items after) {context : Context}
    (hmode : (context.mode.run (Word.kinds (wordsOf items))).isSome) :
    Reaches context (text ++ after) (wordsOf items) after := by
  induction h generalizing context with
  | nil => exact .here
  | @cons gap text x items hgap hne h ih =>
      obtain ⟨mode, hmode⟩ := Option.isSome_iff_exists.mp hmode
      rw [wordsOf_cons, Word.kinds_append, ImportMode.run_append] at hmode
      obtain ⟨mode', hfirst, hrest⟩ := Option.bind_eq_some_iff.mp hmode
      obtain ⟨w, ws, hcons, hequals⟩ := (hwords x.item).first
      -- the item is scanned on its own first, then in the context that the items before it leave
      have hapart : Reaches .start (x.text ++ (text ++ after)) (words x.item) (text ++ after) := by
        by_cases hlast : items = []
        · subst hlast
          cases h
          exact hafter x (by simp)
        · exact (h.endsToken fun hnil => absurd hnil hlast).apart hwords [x] x (by simp)
      have hitem : Reaches context (x.text ++ (text ++ after)) (words x.item) (text ++ after) := by
        refine hapart.inContext (by rw [hfirst]; rfl) fun before hbefore => ?_
        exact Context.expectsPattern_pushAll context (by simp [Context.start])
          (by simpa [hcons] using hequals) hbefore
      have hothers : Reaches (context.pushAll (words x.item)) (text ++ after) (wordsOf items) after :=
        ih (fun y hy => hafter y (List.mem_cons_of_mem x hy))
          (by rw [Context.mode_pushAll hfirst, hrest]; rfl)
      rw [wordsOf_cons, List.append_assoc, List.append_assoc]
      exact (hitem.gap hgap (hwords x.item).ne_nil).trans hothers

/-- They are scanned after other words too. -/
lemma reaches_append (hwords : ∀ x, StandsAlone (words x)) {before : List Char} {head : List Word}
    (hbefore : Reaches .start before head []) (hclosed : Closes head) (h : Written items text)
    (hends : EndsToken (text ++ after)) (hafter : Apart items after)
    (hmode : ((Context.start.pushAll head).mode.run (Word.kinds (wordsOf items))).isSome) :
    Reaches .start (before ++ (text ++ after)) (head ++ wordsOf items) after :=
  (hbefore.extend hends fun w hw => (hclosed w hw).1).trans (h.reaches hwords hafter hmode)

/-- What is written after the first of them. -/
lemma exists_append {items' : List (Spelled words)} (h : Written (items ++ items') text) :
    ∃ first others, text = first ++ others ∧ Written items first ∧ Written items' others := by
  induction items generalizing text with
  | nil => exact ⟨[], text, rfl, .nil, h⟩
  | cons x items ih =>
      cases h with
      | @cons gap text _ _ hgap hne h =>
          obtain ⟨first, others, rfl, hfirst, hothers⟩ := ih h
          exact ⟨gap ++ (x.text ++ first), others, by simp, .cons hgap hne hfirst, hothers⟩

/-- With any of them, the text goes on with a token. -/
lemma hasToken (hwords : ∀ x, StandsAlone (words x)) (h : Written items text) (hne : items ≠ [])
    (hafter : EndsToken after) : HasToken (text ++ after) := by
  cases h with
  | nil => exact absurd rfl hne
  | @cons gap text x items hgap _ h =>
      have hitem := (h.endsToken fun _ => hafter).apart hwords [x] x (by simp)
      rw [List.append_assoc, List.append_assoc]
      exact (hitem.gap hgap (hwords x.item).ne_nil).hasToken (hwords x.item).ne_nil

end Written

end Lists

/-! ### What is scanned from there on -/

/-- The tokens of a text are those of some words and those of what is left after them. -/
lemma ScansIn.exists_rest {context : Context} {place stop : Place} {text rest : List Char}
    {words : List Word} {tokens : List Token} (h : ScansIn context text words rest)
    (hscan : scanTokens context place text = .ok (tokens, stop)) :
    ∃ taken left place', tokens = taken ++ left ∧ taken.map Token.word = words ∧
      scanTokens (context.pushAll words) place' rest = .ok (left, stop) := by
  obtain ⟨place', taken, hwords, heq⟩ := h place
  rw [hscan] at heq
  cases hrest : scanTokens (context.pushAll words) place' rest with
  | error e => simp [hrest, Except.map] at heq
  | ok scanned =>
      obtain ⟨left, stop'⟩ := scanned
      rw [hrest] at heq
      cases heq
      exact ⟨taken, left, place', rfl, hwords, hrest⟩

/-- The first token is a location where one is expected. -/
lemma exists_uri {context : Context} {place stop : Place} {text : List Char} {tokens : List Token}
    (hmode : context.mode = .afterFrom) (htoken : HasToken text)
    (h : scanTokens context place text = .ok (tokens, stop)) :
    ∃ t rest, tokens = t :: rest ∧ t.kind = .uri := by
  obtain ⟨gap, c, cs, hgap, hopens, rfl⟩ := htoken
  have hrun := (isScanned_of_scanTokens h).2
  rw [scanTokens_gap (hgap.spanGap_append _), scanTokens_step, spanGap_of_not_opensGap hopens] at h
  cases tokens with
  | nil =>
      -- the character is left by no scanner
      dsimp only at h
      split at h
      · cases h
      · next lexeme after _ =>
          obtain ⟨scanned, -, heq⟩ := map_eq_ok.mp h
          simp [prepend] at heq
  | cons t rest =>
      refine ⟨t, rest, rfl, ?_⟩
      obtain ⟨mode, hrun⟩ := Option.isSome_iff_exists.mp hrun
      simp only [List.map_cons, Word.kinds_cons, Token.word_kind, hmode, ImportMode.run,
        Option.ite_none_right_eq_some] at hrun
      simpa [ImportMode.admits] using hrun.1

end Concerto
