import Concerto.Proofs.Token.Yields

/-!
Parsers that read again what they have read.

* `Parser.Retraces`: what one parser has read, another one reads in front of other words too;
* `Parser.Advances`: the same of a parser that takes at least one word;
* `Parser.Retraces.many`, `Parser.Retraces.foldWhile`: repetitions;
* `Parser.Repeats`: words that are items of a repetition, one after another.

The two parsers are the same one but for the places of tokens that they have looked at, which only
tell where a fault is. A parser looks at the kind of the first word that it leaves. How much it
sees of the kind is its view: all of it if the kind matters, nothing if it does not.
-/

namespace Concerto

namespace Parser

variable {α β : Type}

/-- What `p` has made of some words, `q` makes of them too, before a word whose kind looks like the
one that `p` has found after them. -/
def Retraces (view : TokenKind → TokenKind) (p q : Parser α) : Prop :=
  ∀ (s s' : TokenStream) (a : α), p s = .ok (a, s') → ∃ taken, s.words = taken ++ s'.words ∧
    Reads q taken (· = a) fun k => view k = view (nextKind s'.words)

/-- Besides, there is a word that `p` has taken, if `first` holds for the next token. -/
def Advances (view : TokenKind → TokenKind) (first : Token → Prop) (p q : Parser α) : Prop :=
  ∀ (s s' : TokenStream) (a : α), p s = .ok (a, s') → first s.current →
    ∃ w taken, s.words = w :: taken ++ s'.words ∧
      Reads q (w :: taken) (· = a) fun k => view k = view (nextKind s'.words)

/-- What is asked about a kind can be told from its view. -/
def Discerns (view : TokenKind → TokenKind) (asked : TokenKind → Bool) : Prop :=
  ∀ k k', view k = view k' → asked k = asked k'

/-- The kind itself is seen. -/
def exactly (kind : TokenKind) : TokenKind := kind

/-- Nothing is seen of the kind. -/
def blindly (_ : TokenKind) : TokenKind := .eof

lemma discerns_exactly (asked : TokenKind → Bool) : Discerns exactly asked :=
  fun _ _ h => congrArg asked h

variable {view : TokenKind → TokenKind} {first : Token → Prop} {p q : Parser α}
  {f g : α → Parser β}

/-- The token that is next is the first of the words ahead, unless the text ends. -/
lemma exists_of_current {s : TokenStream} (h : s.current.kind ≠ .eof) :
    s.words = s.current.word :: s.tail.words := by
  obtain ⟨ahead, stop⟩ := s
  cases ahead with
  | nil => exact absurd rfl h
  | cons t ts => rfl

/-- A word that has been taken is no longer ahead. -/
lemma length_ahead_lt {s s' : TokenStream} {w : Word} {taken : List Word}
    (h : s.words = w :: taken ++ s'.words) : s'.ahead.length < s.ahead.length := by
  rw [← s.length_words, ← s'.length_words, h, List.cons_append, List.length_cons,
    List.length_append]
  omega

/-- A failure is no success. -/
lemma failAt_ne_ok (t : Token) (fault : GrammarFault) (s : TokenStream) (r : α × TokenStream) :
    failAt t fault s ≠ .ok r := by
  intro h
  have h : (Except.error _ : Except SourceError (α × TokenStream)) = .ok r := h
  cases h

/-- Of two tokens that are the same word, the kinds and the values are the same. -/
lemma eq_of_word_eq {t t' : Token} (h : t'.word = t.word) :
    t'.kind = t.kind ∧ t'.value = t.value := by
  simpa [Token.word] using h

/-! ### Single steps -/

namespace Retraces

/-- Nothing is taken. -/
lemma pure (a : α) : Retraces view (pure a) (pure a) := by
  intro s s' a' heq
  have heq : (Except.ok (a, s) : Except SourceError _) = .ok (a', s') := heq
  cases heq
  exact ⟨[], rfl, .pure rfl⟩

/-- A failure has read nothing. -/
lemma failAt (t : Token) (fault : GrammarFault) : Retraces view (failAt t fault) q :=
  fun _ _ _ heq => absurd heq (failAt_ne_ok t fault _ _)

/-- Nor has what would have gone on after it. -/
lemma failAt_bind (t : Token) (fault : GrammarFault) {q : Parser β} :
    Retraces view (Parser.failAt t fault >>= f) q := by
  intro s s' b heq
  obtain ⟨a, s₁, hfail, -⟩ := Yields.exists_of_bind heq
  exact absurd hfail (failAt_ne_ok t fault s (a, s₁))

/-- The value of a number. -/
lemma numberValue (value : Except NumberError α) :
    Retraces view (numberValue value) (numberValue value) := by
  cases value with
  | ok a => exact .pure a
  | error e =>
      intro s s' a heq
      have heq : (Except.error _ : Except SourceError (α × TokenStream)) = .ok (a, s') := heq
      cases heq

/-- One parser after another. -/
lemma bind (hp : Retraces view p q) (hf : ∀ a, Retraces view (f a) (g a)) :
    Retraces view (p >>= f) (q >>= g) := by
  intro s s' b heq
  obtain ⟨a, s₁, hfirst, hsecond⟩ := Yields.exists_of_bind heq
  obtain ⟨taken, htaken, hreads⟩ := hp s s₁ a hfirst
  obtain ⟨taken', htaken', hreads'⟩ := hf a s₁ s' b hsecond
  refine ⟨taken ++ taken', by rw [htaken, htaken', List.append_assoc], ?_⟩
  refine hreads.bind (fun a' ha' => by rw [ha']; exact hreads') fun rest hrest => ?_
  cases taken' with
  | nil => rw [htaken']; exact hrest
  | cons w ws => rw [htaken']; rfl

/-- A result is changed. -/
lemma map {h : α → β} (hp : Retraces view p q) : Retraces view (h <$> p) (h <$> q) := by
  have hbind : Retraces view (p >>= fun a => Pure.pure (h a)) (q >>= fun a => Pure.pure (h a)) :=
    hp.bind fun a => .pure (h a)
  rwa [bind_pure_comp, bind_pure_comp] at hbind

/-- The next kind is looked at. -/
lemma nextIs {kind : TokenKind} (hview : Discerns view (· = kind)) :
    Retraces view (nextIs kind) (nextIs kind) := by
  intro s s' b heq
  have heq : (Except.ok (decide (s.current.kind = kind), s) : Except SourceError _) = .ok (b, s') :=
    heq
  cases heq
  refine ⟨[], rfl, fun s₁ rest hwords hrest => ⟨_, s₁, rfl, hwords, ?_⟩⟩
  rw [s₁.current_kind, hwords, List.nil_append, s.current_kind]
  exact hview _ _ hrest

/-- A choice by the next kind, where the token is taken if it is of that kind. -/
lemma nextIs_bind {kind : TokenKind} (hview : Discerns view (· = kind)) {f g : Bool → Parser β}
    (htrue : Advances view (fun t => t.kind = kind) (f true) (g true))
    (hfalse : Retraces view (f false) (g false)) :
    Retraces view (Parser.nextIs kind >>= f) (Parser.nextIs kind >>= g) := by
  intro s s' b heq
  have heq : f (decide (s.current.kind = kind)) s = .ok (b, s') := heq
  -- if the kind is there, its token is taken; otherwise no token is, and only the kind of the next
  -- one counts
  by_cases hkind : s.current.kind = kind
  · rw [decide_eq_true hkind] at heq
    obtain ⟨w, taken, hwords, hreads⟩ := htrue s s' b heq hkind
    refine ⟨w :: taken, hwords, .nextIs ?_ hreads⟩
    rw [← hkind, s.current_kind, hwords, List.cons_append, nextKind_cons]
  · rw [decide_eq_false hkind] at heq
    obtain ⟨taken, hwords, hreads⟩ := hfalse s s' b heq
    refine ⟨taken, hwords, ?_⟩
    rw [s.current_kind, hwords] at hkind
    -- the second parser may have no word to take, and then sees the kind that ends the words
    cases taken with
    | nil =>
        have hnone : Reads (Parser.nextIs kind) [] (· = false)
            fun k => view k = view (nextKind s'.words) := by
          refine .nextIs_nil fun k hk heq => hkind ?_
          simpa [heq] using (hview _ _ hk).symm
        exact .bind_nil hnone fun b hb => by rw [hb]; exact hreads
    | cons w ws => exact .nextIs_skip hkind hreads

end Retraces

namespace Advances

/-- That a word has been taken may be forgotten. -/
lemma retraces (h : Advances view AnyToken p q) : Retraces view p q := by
  intro s s' a heq
  obtain ⟨w, taken, hwords, hreads⟩ := h s s' a heq trivial
  exact ⟨w :: taken, hwords, hreads⟩

/-- A failure has read nothing. -/
lemma failAt (t : Token) (fault : GrammarFault) : Advances view first (failAt t fault) q :=
  fun _ _ _ heq _ => absurd heq (failAt_ne_ok t fault _ _)

/-- More may be known of the next token. -/
lemma imp {first' : Token → Prop} (h : Advances view first' p q) (himp : ∀ t, first t → first' t) :
    Advances view first p q :=
  fun s s' a heq hfirst => h s s' a heq (himp _ hfirst)

/-- More may be seen of the kind that follows: all of it. -/
lemma toExactly (h : Advances view first p q) : Advances exactly first p q := by
  intro s s' a heq hfirst
  obtain ⟨w, taken, hwords, hreads⟩ := h s s' a heq hfirst
  exact ⟨w, taken, hwords, hreads.mono (fun _ ha => ha) fun _ hk => congrArg view hk⟩

/-- A word is taken, and perhaps others after it. -/
lemma bind (hp : Advances view first p q) (hf : ∀ a, Retraces view (f a) (g a)) :
    Advances view first (p >>= f) (q >>= g) := by
  intro s s' b heq hfirst
  obtain ⟨a, s₁, hfirst', hsecond⟩ := Yields.exists_of_bind heq
  obtain ⟨w, taken, htaken, hreads⟩ := hp s s₁ a hfirst' hfirst
  obtain ⟨taken', htaken', hreads'⟩ := hf a s₁ s' b hsecond
  refine ⟨w, taken ++ taken', by rw [htaken, htaken', ← List.append_assoc, List.cons_append], ?_⟩
  refine hreads.bind (fun a' ha' => by rw [ha']; exact hreads') fun rest hrest => ?_
  cases taken' with
  | nil => rw [htaken']; exact hrest
  | cons w' ws => rw [htaken']; rfl

/-- Perhaps some words are taken, and one after them. What is seen by the first parser is then one
of the words that both take. -/
lemma bind_last (hp : Retraces exactly p q) (hf : ∀ a, Advances view AnyToken (f a) (g a)) :
    Advances view first (p >>= f) (q >>= g) := by
  intro s s' b heq _
  obtain ⟨a, s₁, hfirst, hsecond⟩ := Yields.exists_of_bind heq
  obtain ⟨taken, htaken, hreads⟩ := hp s s₁ a hfirst
  obtain ⟨w, taken', htaken', hreads'⟩ := hf a s₁ s' b hsecond trivial
  have hbind : Reads (q >>= g) (taken ++ w :: taken') (· = b)
      fun k => view k = view (nextKind s'.words) :=
    hreads.bind (fun a' ha' => by rw [ha']; exact hreads') fun rest _ => by rw [htaken']; rfl
  cases taken with
  | nil => exact ⟨w, taken', by rw [htaken, htaken', List.nil_append], hbind⟩
  | cons w₁ ws =>
      exact ⟨w₁, ws ++ w :: taken', by rw [htaken, htaken', ← List.append_assoc, List.cons_append],
        hbind⟩

/-- The next token is looked at, and taken. -/
lemma peek {f g : Token → Parser β}
    (hf : ∀ t t' : Token, first t → t'.word = t.word → Advances view (· = t) (f t) (g t')) :
    Advances view first (peek >>= f) (peek >>= g) := by
  intro s s' b heq hfirst
  have heq : f s.current s = .ok (b, s') := heq
  obtain ⟨w, taken, hwords, -⟩ := hf s.current s.current hfirst rfl s s' b heq rfl
  have hcurrent := (TokenStream.exists_of_words (hwords.trans List.cons_append)).1
  refine ⟨w, taken, hwords, .peek fun t' ht' => ?_⟩
  obtain ⟨w', taken', hwords', hreads⟩ :=
    hf s.current t' hfirst (ht'.trans hcurrent.symm) s s' b heq rfl
  rw [hwords, List.append_cancel_right_eq] at hwords'
  rwa [hwords']

/-- A token that does not end the text is taken. -/
lemma advance {f g : Token → Parser β} (heof : ∀ t, first t → t.kind ≠ .eof)
    (hf : ∀ t t' : Token, first t → t'.word = t.word → Retraces view (f t) (g t')) :
    Advances view first (advance >>= f) (advance >>= g) := by
  intro s s' b heq hfirst
  have heq : f s.current s.tail = .ok (b, s') := heq
  have hcurrent := exists_of_current (heof _ hfirst)
  obtain ⟨taken, hwords, -⟩ := hf s.current s.current hfirst rfl s.tail s' b heq
  refine ⟨s.current.word, taken, by rw [hcurrent, hwords, List.cons_append], ?_⟩
  refine .bind_cons .advance fun t' ht' => ?_
  obtain ⟨taken', hwords', hreads⟩ := hf s.current t' hfirst ht' s.tail s' b heq
  rw [hwords, List.append_cancel_right_eq] at hwords'
  rwa [hwords']

/-- A token of an expected kind is taken. -/
lemma expect {kinds : List TokenKind} {f g : Token → Parser β} (heof : .eof ∉ kinds)
    (hf : ∀ t t' : Token, t.kind ∈ kinds → t'.word = t.word → Retraces view (f t) (g t')) :
    Advances view first (expect kinds >>= f) (expect kinds >>= g) := by
  have hassoc : ∀ h : Token → Parser β, Parser.expect kinds >>= h = Parser.peek >>= fun t =>
      (if kinds.contains t.kind then Parser.advance else Parser.failAt t (.expected kinds t.value))
        >>= h :=
    fun h => bind_assoc ..
  rw [hassoc, hassoc]
  refine .peek fun t t' _ hword => ?_
  obtain ⟨hkind, -⟩ := eq_of_word_eq hword
  rw [hkind]
  split
  · next hcontains =>
      rw [List.contains_iff_mem] at hcontains
      refine .advance (fun t₁ ht₁ heq => ?_) fun t₁ t₁' ht₁ hword₁ => hf t₁ t₁' ?_ hword₁
      · rw [ht₁] at heq
        exact heof (heq ▸ hcontains)
      · rwa [ht₁]
  · intro s s' b heq _
    obtain ⟨a, s₁, hfail, -⟩ := Yields.exists_of_bind heq
    exact absurd hfail (failAt_ne_ok t _ s (a, s₁))

/-- A symbol is taken. -/
lemma symbol {s : Symbol} {f g : Unit → Parser β} (hf : Retraces view (f ()) (g ())) :
    Advances view first (symbol s >>= f) (symbol s >>= g) := by
  have hexpect : ∀ h : Unit → Parser β,
      Parser.symbol s >>= h = Parser.expect [.symbol s] >>= fun _ => h () := by
    intro h
    rw [Parser.symbol, bind_assoc]
    rfl
  rw [hexpect, hexpect]
  exact .expect (by simp) fun _ _ _ _ => hf

end Advances

namespace Retraces

/-- A symbol that may be there. -/
lemma takeSymbol {s : Symbol} (hview : Discerns view (· = .symbol s)) :
    Retraces view (takeSymbol s) (takeSymbol s) :=
  .nextIs_bind hview (.advance (fun t ht => by simp [ht]) fun _ _ _ _ => .pure true) (.pure false)

/-- A keyword that may be there. -/
lemma takeKeyword {k : Keyword} (hview : Discerns view (· = .keyword k)) :
    Retraces view (takeKeyword k) (takeKeyword k) :=
  .nextIs_bind hview (.advance (fun t ht => by simp [ht]) fun _ _ _ _ => .pure true) (.pure false)

/-! ### Repetitions -/

/-- Items, each of which takes a word. -/
lemma many {continues : TokenKind → Bool} {item : Parser α} (hview : Discerns view continues)
    (hitem : Advances view (fun t => continues t.kind = true) item item) :
    Retraces view (many continues item) (many continues item) := by
  intro s s' as heq
  fun_induction Parser.many continues item s generalizing as s' with
  | case1 => simp at heq
  | case2 => simp at heq
  | case3 s hcontinues a s₁ hfirst hlength as' s₂ hothers ih =>
      cases heq
      obtain ⟨w, taken, hwords, hreads⟩ := hitem s s₁ a hfirst hcontinues
      obtain ⟨taken', hwords', hreads'⟩ := ih _ _ hothers
      refine ⟨w :: taken ++ taken', by rw [hwords, hwords', List.append_assoc], ?_⟩
      refine .many_cons ?_ hreads hreads' fun rest hrest => ?_
      · rwa [s.current_kind, hwords] at hcontinues
      -- what the item sees after its words is the first of the next ones, or what follows all of
      -- them
      · cases taken' with
        | nil => rw [hwords']; exact hrest
        | cons w' ws => rw [hwords']; rfl
  | case4 s hcontinues a s₁ hfirst hlength =>
      obtain ⟨w, taken, hwords, -⟩ := hitem s s₁ a hfirst hcontinues
      exact absurd (length_ahead_lt hwords) hlength
  | case5 s hcontinues =>
      cases heq
      refine ⟨[], rfl, .many_nil fun k hk => ?_⟩
      rw [hview _ _ hk, ← s.current_kind]
      simpa using hcontinues

/-- A loop, each step of which takes a word. -/
lemma foldWhile {σ : Type} {continues : σ → TokenKind → Bool} {step : σ → Parser σ}
    (hview : ∀ a, Discerns view (continues a))
    (hstep : ∀ a, Advances view (fun t => continues a t.kind = true) (step a) (step a)) (a : σ) :
    Retraces view (foldWhile continues step a) (foldWhile continues step a) := by
  intro s s' c heq
  fun_induction Parser.foldWhile continues step a s generalizing c s' with
  | case1 => simp at heq
  | case2 a s hcontinues b s₁ hfirst hlength ih =>
      obtain ⟨w, taken, hwords, hreads⟩ := hstep a s s₁ b hfirst hcontinues
      obtain ⟨taken', hwords', hreads'⟩ := ih _ _ heq
      refine ⟨w :: taken ++ taken', by rw [hwords, hwords', List.append_assoc], ?_⟩
      refine .foldWhile_cons ?_ hreads hreads' fun rest hrest => ?_
      · rwa [s.current_kind, hwords] at hcontinues
      · cases taken' with
        | nil => rw [hwords']; exact hrest
        | cons w' ws => rw [hwords']; rfl
  | case3 a s hcontinues b s₁ hfirst hlength =>
      obtain ⟨w, taken, hwords, -⟩ := hstep a s s₁ b hfirst hcontinues
      exact absurd (length_ahead_lt hwords) hlength
  | case4 a s hcontinues =>
      cases heq
      refine ⟨[], rfl, .foldWhile_nil fun k hk => ?_⟩
      rw [hview a _ _ hk, ← s.current_kind]
      simpa using hcontinues

/-- Items with separators between them. -/
lemma separatedBy {separator : Symbol} {item : Parser α}
    (hview : Discerns view (· = .symbol separator)) (hitem : Retraces view item item) :
    Retraces view (separatedBy separator item) (separatedBy separator item) :=
  .bind hitem fun _ => .bind (.many hview (.symbol hitem)) fun _ => .pure _

end Retraces

/-! ### Items -/

/-- The words are those of items, one after another. Each item begins with a kind that continues
the repetition and is read as one of `as` before the kinds in `follows`, among which are those that
the items begin with. -/
def Repeats (continues : TokenKind → Bool) (item : Parser α) (follows : TokenKind → Prop)
    (words : List Word) (as : List α) : Prop :=
  ∃ pieces : List (List Word × α), pieces.flatMap Prod.fst = words ∧ pieces.map Prod.snd = as ∧
    ∀ c ∈ pieces, Reads item c.1 (· = c.2) follows ∧
      ∃ w ws, c.1 = w :: ws ∧ continues w.kind = true ∧ follows w.kind

namespace Repeats

variable {continues : TokenKind → Bool} {item : Parser α} {follows : TokenKind → Prop}
  {words words' : List Word} {as bs : List α}

lemma nil : Repeats continues item follows [] [] := ⟨[], rfl, rfl, by simp⟩

/-- Items after others. -/
lemma append (h : Repeats continues item follows words as)
    (h' : Repeats continues item follows words' bs) :
    Repeats continues item follows (words ++ words') (as ++ bs) := by
  obtain ⟨pieces, rfl, rfl, hpieces⟩ := h
  obtain ⟨pieces', rfl, rfl, hpieces'⟩ := h'
  exact ⟨pieces ++ pieces', List.flatMap_append, List.map_append,
    List.forall_mem_append.mpr ⟨hpieces, hpieces'⟩⟩

/-- No items have no words. -/
lemma words_eq_nil (h : Repeats continues item follows words []) : words = [] := by
  obtain ⟨pieces, rfl, hnil, -⟩ := h
  rw [List.map_eq_nil_iff] at hnil
  rw [hnil, List.flatMap_nil]

/-- The first word begins an item. -/
lemma continues_head (h : Repeats continues item follows words as) :
    ∀ w ∈ words.head?, continues w.kind = true := by
  obtain ⟨pieces, rfl, -, hpieces⟩ := h
  cases pieces with
  | nil => simp
  | cons c pieces =>
      obtain ⟨-, w, ws, hc, hcontinues, -⟩ := hpieces c (by simp)
      simpa [hc] using hcontinues

/-- The items are read again. -/
lemma reads {G : TokenKind → Prop} (h : Repeats continues item follows words as)
    (hend : ∀ k, G k → continues k = false ∧ follows k) :
    Reads (many continues item) words (· = as) G := by
  obtain ⟨pieces, rfl, rfl, hpieces⟩ := h
  exact .many pieces Prod.fst Prod.snd hpieces hend

/-- A repetition that has succeeded has read items, if all that its items see is the same kind. It
has ended before a kind that does not continue it. -/
lemma of_many {v : TokenKind} (hview : ∀ k, continues k = true → view k = v)
    (hitem : Advances view (fun t => continues t.kind = true) item item) {s s' : TokenStream}
    (h : many continues item s = .ok (as, s')) (hend : view (nextKind s'.words) = v) :
    ∃ words, s.words = words ++ s'.words ∧ continues (nextKind s'.words) = false ∧
      Repeats continues item (fun k => view k = v) words as := by
  fun_induction Parser.many continues item s generalizing as s' with
  | case1 => simp at h
  | case2 => simp at h
  | case3 s hcontinues a s₁ hfirst hlength as' s₂ hothers ih =>
      cases h
      obtain ⟨w, taken, hwords, hreads⟩ := hitem s s₁ a hfirst hcontinues
      obtain ⟨words, hwords', hstop, pieces, rfl, rfl, hpieces⟩ := ih hothers hend
      -- the first word of the next item continues the repetition, and so looks the same as its end
      have hnext : view (nextKind s₁.words) = v := by
        rw [hwords']
        cases pieces with
        | nil => exact hend
        | cons c pieces =>
            obtain ⟨-, w', ws, hc, -, hfollows⟩ := hpieces c (by simp)
            rw [List.flatMap_cons, hc]
            exact hfollows
      rw [hnext] at hreads
      rw [s.current_kind, hwords, List.cons_append, nextKind_cons] at hcontinues
      refine ⟨w :: taken ++ pieces.flatMap Prod.fst, by rw [hwords, hwords', List.append_assoc],
        hstop, (w :: taken, a) :: pieces, rfl, rfl, List.forall_mem_cons.mpr ⟨⟨hreads, ?_⟩, hpieces⟩⟩
      exact ⟨w, taken, rfl, hcontinues, hview _ hcontinues⟩
  | case4 s hcontinues a s₁ hfirst hlength =>
      obtain ⟨w, taken, hwords, -⟩ := hitem s s₁ a hfirst hcontinues
      exact absurd (length_ahead_lt hwords) hlength
  | case5 s hcontinues =>
      cases h
      exact ⟨[], rfl, by rwa [← s.current_kind, ← Bool.not_eq_true], .nil⟩

end Repeats

end Parser

end Concerto
