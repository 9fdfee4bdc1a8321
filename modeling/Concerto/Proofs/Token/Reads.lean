import Concerto.Proofs.Token.Word
import Concerto.Token.Stream

/-!
What a parser reads.

* `Parser.Reads`: words that a parser takes from the front of a stream, and what it makes of them;
* `Parser.Reads.bind`: one parser after another;
* `Parser.Reads.many`, `Parser.Reads.foldWhile_cons`: repetitions.

A parser may look at the next word without taking it, so what it reads also tells which kinds may
follow.
-/

namespace Concerto

/-- The words ahead. -/
def TokenStream.words (s : TokenStream) : List Word := s.ahead.map Token.word

/-- The kind of the first of some words; past the last word it is the end of the text. -/
def nextKind (words : List Word) : TokenKind := (words.head?.map Word.kind).getD .eof

@[simp] lemma nextKind_nil : nextKind [] = .eof := rfl

@[simp] lemma nextKind_cons (w : Word) (words : List Word) : nextKind (w :: words) = w.kind := rfl

namespace TokenStream

lemma current_kind (s : TokenStream) : s.current.kind = nextKind s.words := by
  obtain ⟨ahead, stop⟩ := s
  cases ahead <;> rfl

/-- A stream with a word ahead. -/
lemma exists_of_words {s : TokenStream} {w : Word} {rest : List Word} (h : s.words = w :: rest) :
    s.current.word = w ∧ s.tail.words = rest := by
  obtain ⟨ahead, stop⟩ := s
  cases ahead with
  | nil => simp [words] at h
  | cons t ts =>
      simp only [words, List.map_cons, List.cons.injEq] at h
      exact h

lemma length_words (s : TokenStream) : s.words.length = s.ahead.length := List.length_map ..

end TokenStream

namespace Parser

variable {α β : Type}

/-- Before words whose first kind is in `follows`, the parser takes `words` and makes of them a
result that satisfies `result`. -/
def Reads (p : Parser α) (words : List Word) (result : α → Prop) (follows : TokenKind → Prop) :
    Prop :=
  ∀ (s : TokenStream) (rest : List Word), s.words = words ++ rest → follows (nextKind rest) →
    ∃ (a : α) (s' : TokenStream), p s = .ok (a, s') ∧ s'.words = rest ∧ result a

/-- Any kind may follow. -/
def Anything (_ : TokenKind) : Prop := True

namespace Reads

variable {p : Parser α} {f : α → Parser β} {words words' : List Word} {P : α → Prop}
  {Q : β → Prop} {F G : TokenKind → Prop}

/-- Nothing is read. -/
lemma pure {a : α} (h : P a) : Reads (pure a) [] P F :=
  fun s _ hwords _ => ⟨a, s, rfl, hwords, h⟩

/-- One parser after another, where what the second one reads may follow the first one. -/
lemma bind (hp : Reads p words P F) (hf : ∀ a, P a → Reads (f a) words' Q G)
    (hfollows : ∀ rest, G (nextKind rest) → F (nextKind (words' ++ rest))) :
    Reads (p >>= f) (words ++ words') Q G := by
  intro s rest hwords hrest
  rw [List.append_assoc] at hwords
  obtain ⟨a, s₁, hp, hs₁, ha⟩ := hp s (words' ++ rest) hwords (hfollows rest hrest)
  obtain ⟨b, s₂, hf, hs₂, hb⟩ := hf a ha s₁ rest hs₁ hrest
  refine ⟨b, s₂, ?_, hs₂, hb⟩
  show (p s >>= fun r => f r.1 r.2) = _
  rw [hp]
  exact hf

/-- A parser of a single word, which any word may follow, before another parser. -/
lemma bind_cons {w : Word} (hp : Reads p [w] P Anything) (hf : ∀ a, P a → Reads (f a) words Q G) :
    Reads (p >>= f) (w :: words) Q G :=
  hp.bind hf fun _ _ => trivial

/-- A parser that takes nothing before the next word, and another parser. -/
lemma bind_skip {w : Word} (hp : Reads p [] P (· = w.kind))
    (hf : ∀ a, P a → Reads (f a) (w :: words) Q G) : Reads (p >>= f) (w :: words) Q G :=
  hp.bind hf fun _ _ => rfl

/-- What the second parser reads may be nothing. -/
lemma bind_nil (hp : Reads p words P F) (hf : ∀ a, P a → Reads (f a) [] Q F) :
    Reads (p >>= f) words Q F := by
  rw [← List.append_nil words]
  exact hp.bind hf fun _ h => h

/-- Less may be known of the result, and fewer kinds may follow. -/
lemma mono {P' : α → Prop} {F' : TokenKind → Prop} (h : Reads p words P F) (hP : ∀ a, P a → P' a)
    (hF : ∀ k, F' k → F k) : Reads p words P' F' := by
  intro s rest hwords hrest
  obtain ⟨a, s', hp, hs', ha⟩ := h s rest hwords (hF _ hrest)
  exact ⟨a, s', hp, hs', hP a ha⟩

/-- The next word is looked at. -/
lemma peek {f : Token → Parser β} {w : Word} (hf : ∀ t : Token, t.word = w → Reads (f t) (w :: words) Q G) :
    Reads (peek >>= f) (w :: words) Q G := by
  intro s rest hwords hrest
  exact hf s.current (TokenStream.exists_of_words hwords).1 s rest hwords hrest

/-- The next kind is looked at, and nothing is taken. -/
lemma peek_nil {f : Token → Parser β}
    (hf : ∀ t : Token, G t.kind → Reads (f t) [] Q G) : Reads (Parser.peek >>= f) [] Q G := by
  intro s rest hwords hrest
  have hkind := s.current_kind
  rw [hwords, List.nil_append] at hkind
  exact hf s.current (by rwa [hkind]) s rest hwords hrest

/-- The next word is taken. -/
lemma advance {w : Word} : Reads advance [w] (fun t => t.word = w) F := by
  intro s rest hwords hrest
  obtain ⟨hcurrent, htail⟩ := TokenStream.exists_of_words hwords
  exact ⟨s.current, s.tail, rfl, htail, hcurrent⟩

/-- A word of an expected kind is taken. -/
lemma expect {kinds : List TokenKind} {w : Word} (h : w.kind ∈ kinds) :
    Reads (expect kinds) [w] (fun t => t.word = w) F := by
  refine .peek fun t ht => ?_
  have hkind : kinds.contains t.kind = true := by
    rw [List.contains_iff_mem, ← Token.word_kind, ht]
    exact h
  simp only [hkind, if_true]
  exact advance

/-- A symbol is taken. -/
lemma symbol (s : Symbol) : Reads (symbol s) [.symbol s] (fun _ => True) F :=
  .bind_nil (expect (by simp)) fun _ _ => .pure trivial

/-- The next kind is another one. -/
lemma nextIs_nil {kind : TokenKind} (h : ∀ k, F k → k ≠ kind) :
    Reads (nextIs kind) [] (· = false) F := by
  refine .peek_nil fun t ht => .pure ?_
  simpa using h _ ht

/-- The next kind is the one asked for. -/
lemma nextIs {kind : TokenKind} {w : Word} {f : Bool → Parser β} (h : w.kind = kind)
    (hf : Reads (f true) (w :: words) Q G) : Reads (Parser.nextIs kind >>= f) (w :: words) Q G := by
  intro s rest hwords hrest
  have hkind := s.current_kind
  rw [hwords] at hkind
  obtain ⟨b, s', heq, hresult⟩ := hf s rest hwords hrest
  refine ⟨b, s', ?_, hresult⟩
  rw [← heq]
  show f (decide (s.current.kind = kind)) s = f true s
  rw [hkind, List.cons_append, nextKind_cons, decide_eq_true h]

/-- A symbol that may be there is there. -/
lemma takeSymbol (s : Symbol) : Reads (takeSymbol s) [.symbol s] (· = true) F :=
  .nextIs rfl (.bind_nil advance fun _ _ => .pure rfl)

/-- A symbol that may be there is not there. -/
lemma takeSymbol_nil {s : Symbol} (h : ∀ k, F k → k ≠ .symbol s) :
    Reads (Parser.takeSymbol s) [] (· = false) F :=
  .bind_nil (nextIs_nil h) fun b hb => by subst hb; exact .pure rfl

/-- A keyword that may be there is there. -/
lemma takeKeyword (k : Keyword) : Reads (takeKeyword k) [.keyword k] (· = true) F :=
  .nextIs rfl (.bind_nil advance fun _ _ => .pure rfl)

/-- A keyword that may be there is not there. -/
lemma takeKeyword_nil {k : Keyword} (h : ∀ k', F k' → k' ≠ .keyword k) :
    Reads (Parser.takeKeyword k) [] (· = false) F :=
  .bind_nil (nextIs_nil h) fun b hb => by subst hb; exact .pure rfl

/-- A choice by a symbol that is there. -/
lemma takeSymbol_cons {s : Symbol} {f : Bool → Parser β} (hf : Reads (f true) words Q G) :
    Reads (Parser.takeSymbol s >>= f) (.symbol s :: words) Q G :=
  .bind_cons (takeSymbol s) fun b hb => by subst hb; exact hf

/-- A choice by a symbol, where another word is next. -/
lemma takeSymbol_skip {s : Symbol} {f : Bool → Parser β} {w : Word} (hw : w.kind ≠ .symbol s)
    (hf : Reads (f false) (w :: words) Q G) : Reads (Parser.takeSymbol s >>= f) (w :: words) Q G :=
  .bind_skip (takeSymbol_nil fun k hk => by rwa [hk]) fun b hb => by subst hb; exact hf

/-- A choice by a symbol, before what goes on after it. -/
lemma takeSymbol_end {s : Symbol} {f : Bool → Parser β} (hG : ∀ k, G k → k ≠ .symbol s)
    (hf : Reads (f false) [] Q G) : Reads (Parser.takeSymbol s >>= f) [] Q G :=
  .bind_nil (takeSymbol_nil hG) fun b hb => by subst hb; exact hf

/-- A choice by a keyword that is there. -/
lemma takeKeyword_cons {k : Keyword} {f : Bool → Parser β} (hf : Reads (f true) words Q G) :
    Reads (Parser.takeKeyword k >>= f) (.keyword k :: words) Q G :=
  .bind_cons (takeKeyword k) fun b hb => by subst hb; exact hf

/-- A choice by a keyword, where another word is next. -/
lemma takeKeyword_skip {k : Keyword} {f : Bool → Parser β} {w : Word} (hw : w.kind ≠ .keyword k)
    (hf : Reads (f false) (w :: words) Q G) : Reads (Parser.takeKeyword k >>= f) (w :: words) Q G :=
  .bind_skip (takeKeyword_nil fun k' hk => by rwa [hk]) fun b hb => by subst hb; exact hf

/-- A choice by a keyword, before what goes on after it. -/
lemma takeKeyword_end {k : Keyword} {f : Bool → Parser β} (hG : ∀ k', G k' → k' ≠ .keyword k)
    (hf : Reads (f false) [] Q G) : Reads (Parser.takeKeyword k >>= f) [] Q G :=
  .bind_nil (takeKeyword_nil hG) fun b hb => by subst hb; exact hf

/-- A choice by the next kind, before what can only be of it. -/
lemma nextIs_end {kind : TokenKind} {f : Bool → Parser β} (hG : ∀ k, G k → k = kind)
    (hf : Reads (f true) [] Q G) : Reads (Parser.nextIs kind >>= f) [] Q G := by
  have hnext : Reads (Parser.nextIs kind) [] (· = true) G :=
    .peek_nil fun t ht => .pure (by simp [hG _ ht])
  exact .bind_nil hnext fun b hb => by subst hb; exact hf

/-- A choice by the next kind, where it is another one. -/
lemma nextIs_skip {kind : TokenKind} {f : Bool → Parser β} {w : Word} (hw : w.kind ≠ kind)
    (hf : Reads (f false) (w :: words) Q G) : Reads (Parser.nextIs kind >>= f) (w :: words) Q G :=
  .bind_skip (nextIs_nil fun k hk => by rwa [hk]) fun b hb => by subst hb; exact hf

/-- The value of a number that has one. -/
lemma numberValue {a : α} {value : Except NumberError α} (h : value = .ok a) :
    Reads (numberValue value) [] (· = a) F := by
  subst h
  exact .pure rfl

/-- A result is read and changed. -/
lemma map {g : α → β} (hp : Reads p words P F) (hg : ∀ a, P a → Q (g a)) :
    Reads (g <$> p) words Q F := by
  have hbind := bind_nil (f := fun a => Pure.pure (g a)) hp fun a ha => .pure (hg a ha)
  rwa [bind_pure_comp] at hbind

/-! ### Repetitions -/

/-- A repetition ends where nothing continues it. -/
lemma many_nil {continues : TokenKind → Bool} {item : Parser α}
    (h : ∀ k, F k → continues k = false) : Reads (many continues item) [] (· = []) F := by
  intro s rest hwords hrest
  have hstop := h _ hrest
  rw [List.nil_append] at hwords
  rw [← hwords, ← s.current_kind] at hstop
  refine ⟨[], s, ?_, hwords, rfl⟩
  rw [Parser.many, if_neg (by simp [hstop])]

/-- An item, and the repetition after it. -/
lemma many_cons {continues : TokenKind → Bool} {item : Parser α} {w : Word} {a : α} {as : List α}
    (hw : continues w.kind = true) (hitem : Reads item (w :: words) (· = a) F)
    (hmany : Reads (many continues item) words' (· = as) G)
    (hfollows : ∀ rest, G (nextKind rest) → F (nextKind (words' ++ rest))) :
    Reads (many continues item) (w :: words ++ words') (· = a :: as) G := by
  intro s rest hwords hrest
  rw [List.append_assoc] at hwords
  obtain ⟨_, s₁, hfirst, hs₁, rfl⟩ := hitem s (words' ++ rest) hwords (hfollows rest hrest)
  obtain ⟨_, s₂, hothers, hs₂, rfl⟩ := hmany s₁ rest hs₁ hrest
  have hkind := s.current_kind
  rw [hwords, List.cons_append, nextKind_cons] at hkind
  have hlength : s₁.ahead.length < s.ahead.length := by
    rw [← s.length_words, ← s₁.length_words, hwords, hs₁]
    simp only [List.cons_append, List.length_cons, List.length_append]
    omega
  refine ⟨_, s₂, ?_, hs₂, rfl⟩
  rw [Parser.many, if_pos (by rw [hkind, hw])]
  simp only [hfirst, if_pos hlength, hothers]

/-- Several items, each of which begins with a word that continues the repetition and may follow
the item before. -/
lemma many {continues : TokenKind → Bool} {item : Parser α} {γ : Type} (items : List γ)
    (spelled : γ → List Word) (result : γ → α)
    (hitems : ∀ c ∈ items, Reads item (spelled c) (· = result c) F ∧
      ∃ w ws, spelled c = w :: ws ∧ continues w.kind = true ∧ F w.kind)
    (hend : ∀ k, G k → continues k = false ∧ F k) :
    Reads (many continues item) (items.flatMap spelled) (· = items.map result) G := by
  induction items with
  | nil => exact many_nil fun k hk => (hend k hk).1
  | cons c cs ih =>
      have htail := ih fun d hd => hitems d (by simp [hd])
      obtain ⟨hread, w, ws, hspelled, hcontinues, -⟩ := hitems c (by simp)
      rw [hspelled] at hread
      rw [List.flatMap_cons, List.map_cons, hspelled]
      refine many_cons hcontinues hread htail fun rest hrest => ?_
      -- the next item, or what follows all of them, is of a kind that may follow this one
      cases cs with
      | nil => exact (hend _ hrest).2
      | cons d ds =>
          obtain ⟨-, w', ws', hspelled', -, hfollows⟩ := hitems d (by simp)
          rw [List.flatMap_cons, hspelled']
          exact hfollows

/-- Items with separators between them. -/
lemma separatedBy {separator : Symbol} {item : Parser α} {γ : Type} (c : γ) (items : List γ)
    (spelled : γ → List Word) (result : γ → α)
    (hitems : ∀ d ∈ c :: items, Reads item (spelled d) (· = result d) F)
    (hseparator : F (.symbol separator)) (hend : ∀ k, G k → k ≠ .symbol separator ∧ F k) :
    Reads (separatedBy separator item)
      (spelled c ++ items.flatMap fun d => .symbol separator :: spelled d)
      (· = (c :: items).map result) G := by
  have hothers : Reads (Parser.many (· = .symbol separator) do
      Parser.symbol separator
      item) (items.flatMap fun d => .symbol separator :: spelled d) (· = items.map result) G := by
    refine many items _ _ (fun d hd => ⟨?_, _, _, rfl, by simp, hseparator⟩) fun k hk => ?_
    · exact .bind (symbol (F := Anything) separator) (fun _ _ => hitems d (by simp [hd]))
        fun _ _ => trivial
    · exact ⟨by simpa using (hend k hk).1, (hend k hk).2⟩
  refine .bind (hitems c (by simp)) (fun first hfirst => ?_) fun rest hrest => ?_
  · refine .bind_nil hothers fun others hothers => .pure ?_
    rw [hfirst, hothers, List.map_cons]
  · cases items with
    | nil => exact (hend _ hrest).2
    | cons d ds => exact hseparator

/-- A loop ends where nothing continues it. -/
lemma foldWhile_nil {σ : Type} {continues : σ → TokenKind → Bool} {step : σ → Parser σ} {a : σ}
    (h : ∀ k, F k → continues a k = false) : Reads (foldWhile continues step a) [] (· = a) F := by
  intro s rest hwords hrest
  have hstop := h _ hrest
  rw [List.nil_append] at hwords
  rw [← hwords, ← s.current_kind] at hstop
  refine ⟨a, s, ?_, hwords, rfl⟩
  rw [foldWhile, if_neg (by simp [hstop])]

/-- A step, and the loop after it. -/
lemma foldWhile_cons {σ : Type} {continues : σ → TokenKind → Bool} {step : σ → Parser σ}
    {a b : σ} {w : Word} {R : σ → Prop} (hw : continues a w.kind = true)
    (hstep : Reads (step a) (w :: words) (· = b) F)
    (hloop : Reads (foldWhile continues step b) words' R G)
    (hfollows : ∀ rest, G (nextKind rest) → F (nextKind (words' ++ rest))) :
    Reads (foldWhile continues step a) (w :: words ++ words') R G := by
  intro s rest hwords hrest
  rw [List.append_assoc] at hwords
  obtain ⟨_, s₁, hfirst, hs₁, rfl⟩ := hstep s (words' ++ rest) hwords (hfollows rest hrest)
  obtain ⟨c, s₂, hothers, hs₂, hc⟩ := hloop s₁ rest hs₁ hrest
  have hkind := s.current_kind
  rw [hwords, List.cons_append, nextKind_cons] at hkind
  have hlength : s₁.ahead.length < s.ahead.length := by
    rw [← s.length_words, ← s₁.length_words, hwords, hs₁]
    simp only [List.cons_append, List.length_cons, List.length_append]
    omega
  refine ⟨c, s₂, ?_, hs₂, hc⟩
  rw [foldWhile, if_pos (by rw [hkind, hw])]
  simp only [hfirst, if_pos hlength, hothers]

end Reads

end Parser

end Concerto
