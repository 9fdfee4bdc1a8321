import Concerto.Proofs.Token.Reads
import Concerto.Proofs.Token.Scanning

/-!
What a parser has read.

* `Parser.Yields`: what the words that a parser took have to do with what it made of them;
* `Parser.Yields.bind`: one parser after another;
* `Parser.Yields.many`, `Parser.Yields.foldWhile`: repetitions, the latter with an invariant.

While `Parser.Reads` tells that a parser succeeds, `Parser.Yields` tells what is true once it has.
-/

namespace Concerto

namespace Parser

variable {α β : Type}

/-- Once the parser has succeeded before scanned words, of which `first` held for the next token,
`result` holds for the words it took and for what it made of them. -/
def Yields (p : Parser α) (first : Token → Prop) (result : List Word → α → Prop) : Prop :=
  ∀ (s s' : TokenStream) (a : α), p s = .ok (a, s') → (∀ w ∈ s.words, w.IsScanned) →
    first s.current → ∃ taken, s.words = taken ++ s'.words ∧ result taken a

/-- Any token may be next. -/
def AnyToken (_ : Token) : Prop := True

/-- The words that are left are scanned words too. -/
lemma isScanned_left {s s' : TokenStream} {taken : List Word} (h : s.words = taken ++ s'.words)
    (hscanned : ∀ w ∈ s.words, w.IsScanned) : ∀ w ∈ s'.words, w.IsScanned := by
  intro w hw
  exact hscanned w (by rw [h]; exact List.mem_append_right _ hw)

namespace Yields

variable {p : Parser α} {f : α → Parser β} {first : Token → Prop} {P : List Word → α → Prop}
  {Q : List Word → β → Prop}

/-- Nothing is taken. -/
lemma pure {a : α} (h : P [] a) : Yields (pure a) first P := by
  intro s s' a' heq _ _
  have heq : (Except.ok (a, s) : Except SourceError _) = .ok (a', s') := heq
  cases heq
  exact ⟨[], rfl, h⟩

/-- A failure is no success. -/
lemma failAt (t : Token) (fault : GrammarFault) : Yields (failAt t fault) first P := by
  intro s s' a heq _ _
  have heq : (Except.error _ : Except SourceError (α × TokenStream)) = .ok (a, s') := heq
  cases heq

/-- More may be known of the next token. -/
lemma of_any (h : Yields p AnyToken P) : Yields p first P :=
  fun s s' a heq hscanned _ => h s s' a heq hscanned trivial

/-- What is known of the next token may be used. -/
lemma of_first (h : ∀ t, first t → Yields p first P) : Yields p first P :=
  fun s s' a heq hscanned hfirst => h s.current hfirst s s' a heq hscanned hfirst

/-- Less may be told of what was read. -/
lemma mono {P' : List Word → α → Prop} (h : Yields p first P)
    (hP : ∀ taken a, P taken a → P' taken a) : Yields p first P' := by
  intro s s' a heq hscanned hfirst
  obtain ⟨taken, htaken, ha⟩ := h s s' a heq hscanned hfirst
  exact ⟨taken, htaken, hP taken a ha⟩

/-- The two steps of a success. -/
lemma exists_of_bind {s s' : TokenStream} {b : β} (h : (p >>= f) s = .ok (b, s')) :
    ∃ a s₁, p s = .ok (a, s₁) ∧ f a s₁ = .ok (b, s') := by
  have h : (p s >>= fun r => f r.1 r.2) = .ok (b, s') := h
  cases hp : p s with
  | error e =>
      rw [hp] at h
      cases h
  | ok r =>
      rw [hp] at h
      exact ⟨r.1, r.2, rfl, h⟩

/-- One parser after another. -/
lemma bind (hp : Yields p first P)
    (hf : ∀ a taken, P taken a → Yields (f a) AnyToken fun taken' b => Q (taken ++ taken') b) :
    Yields (p >>= f) first Q := by
  intro s s' b heq hscanned hfirst
  obtain ⟨a, s₁, hfirst', hsecond⟩ := exists_of_bind heq
  obtain ⟨taken, htaken, ha⟩ := hp s s₁ a hfirst' hscanned hfirst
  obtain ⟨taken', htaken', hb⟩ := hf a taken ha s₁ s' b hsecond (isScanned_left htaken hscanned) trivial
  refine ⟨taken ++ taken', ?_, hb⟩
  rw [htaken, htaken', List.append_assoc]

/-- A result is changed. -/
lemma map {g : α → β} (hp : Yields p first P) (hg : ∀ taken a, P taken a → Q taken (g a)) :
    Yields (g <$> p) first Q := by
  have hbind : Yields (p >>= fun a => Pure.pure (g a)) first Q :=
    hp.bind fun a taken ha => .pure (by rw [List.append_nil]; exact hg taken a ha)
  rwa [bind_pure_comp] at hbind

/-- The next token is looked at. -/
lemma peek {f : Token → Parser β} (hf : ∀ t, first t → Yields (f t) (· = t) Q) :
    Yields (peek >>= f) first Q := by
  intro s s' b heq hscanned hfirst
  exact hf s.current hfirst s s' b heq hscanned rfl

/-- A token that does not end the text is taken. -/
lemma advance (h : ∀ t, first t → t.kind ≠ .eof) :
    Yields advance first fun taken t => taken = [t.word] ∧ first t ∧ t.word.IsScanned := by
  intro s s' t heq hscanned hfirst
  have heq : (Except.ok (s.current, s.tail) : Except SourceError _) = .ok (t, s') := heq
  cases heq
  obtain ⟨ahead, stop⟩ := s
  cases ahead with
  | nil => exact absurd rfl (h _ hfirst)
  | cons t ts => exact ⟨[t.word], rfl, rfl, hfirst, hscanned t.word (by simp [TokenStream.words])⟩

/-- A token that has been looked at is taken. -/
lemma advanceOver {t : Token} {f : Token → Parser β} (heof : t.kind ≠ .eof)
    (hf : t.word.IsScanned → Yields (f t) AnyToken fun taken b => Q (t.word :: taken) b) :
    Yields (Parser.advance >>= f) (· = t) Q := by
  refine .bind (advance fun t' ht' => by rwa [ht']) fun t' taken ht => ?_
  obtain ⟨rfl, rfl, hscanned⟩ := ht
  exact hf hscanned

/-- A token of an expected kind, which is taken. -/
lemma expected {kinds : List TokenKind} (heof : .eof ∉ kinds) :
    Yields (Parser.expect kinds) first fun taken t =>
      taken = [t.word] ∧ t.kind ∈ kinds ∧ t.word.IsScanned := by
  refine .peek fun t _ => ?_
  split
  · next hkind =>
      rw [List.contains_iff_mem] at hkind
      refine (advance fun t' ht' => ?_).mono fun taken t' ht' => ?_
      · rw [ht']
        rintro heq
        rw [heq] at hkind
        exact heof hkind
      · obtain ⟨htaken, rfl, hscanned⟩ := ht'
        exact ⟨htaken, hkind, hscanned⟩
  · exact .failAt _ _

/-- A token of an expected kind is taken. -/
lemma expect {kinds : List TokenKind} {f : Token → Parser β} (heof : .eof ∉ kinds)
    (hf : ∀ t : Token, t.kind ∈ kinds → t.word.IsScanned →
      Yields (f t) AnyToken fun taken b => Q (t.word :: taken) b) :
    Yields (expect kinds >>= f) first Q := by
  refine (expected heof).bind fun t taken ht => ?_
  obtain ⟨rfl, hkind, hscanned⟩ := ht
  exact hf t hkind hscanned

/-- A token of a single expected kind is taken. -/
lemma expectOne {kind : TokenKind} {f : Token → Parser β} (heof : kind ≠ .eof)
    (hf : ∀ t : Token, t.kind = kind → t.word.IsScanned →
      Yields (f t) AnyToken fun taken b => Q (t.word :: taken) b) :
    Yields (Parser.expect [kind] >>= f) first Q :=
  .expect (by simpa using heof.symm) fun t hkind => hf t (by simpa using hkind)

/-- A symbol is taken. -/
lemma symbol {s : Symbol} {f : Unit → Parser β}
    (hf : ∀ w : Word, w.kind = .symbol s → Yields (f ()) AnyToken fun taken b => Q (w :: taken) b) :
    Yields (symbol s >>= f) first Q := by
  have hsymbol : Yields (Parser.symbol s) first
      fun taken _ => ∃ w : Word, taken = [w] ∧ w.kind = .symbol s :=
    .expectOne (by simp) fun t hkind _ => .pure ⟨t.word, rfl, hkind⟩
  refine hsymbol.bind fun _ taken ht => ?_
  obtain ⟨w, rfl, hkind⟩ := ht
  exact hf w hkind

/-- A choice by the next kind. -/
lemma nextIs {kind : TokenKind} {f : Bool → Parser β}
    (htrue : Yields (f true) (fun t => first t ∧ t.kind = kind) Q)
    (hfalse : Yields (f false) first Q) : Yields (nextIs kind >>= f) first Q := by
  intro s s' b heq hscanned hfirst
  have heq : f (decide (s.current.kind = kind)) s = .ok (b, s') := heq
  by_cases hkind : s.current.kind = kind
  · rw [decide_eq_true hkind] at heq
    exact htrue s s' b heq hscanned ⟨hfirst, hkind⟩
  · rw [decide_eq_false hkind] at heq
    exact hfalse s s' b heq hscanned hfirst

/-- A choice by a symbol, which is taken. -/
lemma takeSymbol {s : Symbol} {f : Bool → Parser β}
    (htrue : ∀ w : Word, w.kind = .symbol s →
      Yields (f true) AnyToken fun taken b => Q (w :: taken) b)
    (hfalse : Yields (f false) AnyToken Q) : Yields (takeSymbol s >>= f) first Q := by
  have htake : Yields (Parser.takeSymbol s) first fun taken b =>
      if b then ∃ w : Word, taken = [w] ∧ w.kind = .symbol s else taken = [] := by
    refine .nextIs ?_ (.pure rfl)
    refine .bind (advance fun t ht => by simp [ht.2]) fun t taken ht => .pure ?_
    exact ⟨t.word, by simp [ht.1], ht.2.1.2⟩
  refine htake.bind fun b taken hb => ?_
  cases b with
  | false =>
      have htaken : taken = [] := hb
      subst htaken
      exact hfalse
  | true =>
      obtain ⟨w, rfl, hkind⟩ := hb
      exact htrue w hkind

/-- A choice by a keyword, which is taken. -/
lemma takeKeyword {k : Keyword} {f : Bool → Parser β}
    (htrue : ∀ w : Word, w.kind = .keyword k →
      Yields (f true) AnyToken fun taken b => Q (w :: taken) b)
    (hfalse : Yields (f false) AnyToken Q) : Yields (takeKeyword k >>= f) first Q := by
  have htake : Yields (Parser.takeKeyword k) first fun taken b =>
      if b then ∃ w : Word, taken = [w] ∧ w.kind = .keyword k else taken = [] := by
    refine .nextIs ?_ (.pure rfl)
    refine .bind (advance fun t ht => by simp [ht.2]) fun t taken ht => .pure ?_
    exact ⟨t.word, by simp [ht.1], ht.2.1.2⟩
  refine htake.bind fun b taken hb => ?_
  cases b with
  | false =>
      have htaken : taken = [] := hb
      subst htaken
      exact hfalse
  | true =>
      obtain ⟨w, rfl, hkind⟩ := hb
      exact htrue w hkind

/-- The value of a number. -/
lemma numberValue {value : Except NumberError α} (h : ∀ a, value = .ok a → P [] a) :
    Yields (numberValue value) first P := by
  cases value with
  | ok a => exact .pure (h a rfl)
  | error e =>
      intro s s' a heq _ _
      have heq : (Except.error _ : Except SourceError (α × TokenStream)) = .ok (a, s') := heq
      cases heq

/-! ### Repetitions -/

/-- What is true of no items, and of an item before others, is true of those that a repetition
reads. -/
lemma many {continues : TokenKind → Bool} {item : Parser α} {R : List Word → List α → Prop}
    (hitem : Yields item AnyToken P) (hnil : R [] [])
    (hcons : ∀ taken taken' a as, P taken a → R taken' as → R (taken ++ taken') (a :: as)) :
    Yields (many continues item) first R := by
  refine .of_any fun s s' as heq hscanned hany => ?_
  fun_induction Parser.many continues item s generalizing as s' with
  | case1 => simp at heq
  | case2 => simp at heq
  | case3 s hcontinues a s₁ hfirst hlength as' s₂ hothers ih =>
      cases heq
      obtain ⟨taken, htaken, ha⟩ := hitem s s₁ a hfirst hscanned trivial
      have hscanned₁ := isScanned_left htaken hscanned
      obtain ⟨taken', htaken', has⟩ := ih _ _ hothers hscanned₁ trivial
      exact ⟨taken ++ taken', by rw [htaken, htaken', List.append_assoc], hcons _ _ _ _ ha has⟩
  | case4 s hcontinues a s₁ hfirst hlength =>
      cases heq
      obtain ⟨taken, htaken, ha⟩ := hitem s s₁ a hfirst hscanned trivial
      have hresult := hcons taken [] a [] ha hnil
      rw [List.append_nil] at hresult
      exact ⟨taken, htaken, hresult⟩
  | case5 s hcontinues =>
      cases heq
      exact ⟨[], rfl, hnil⟩

/-- What every step of a loop preserves is true at its end. -/
lemma foldWhile {σ : Type} {continues : σ → TokenKind → Bool} {step : σ → Parser σ}
    {I : List Word → σ → Prop}
    (hstep : ∀ taken a, I taken a → Yields (step a) (fun t => continues a t.kind = true)
      fun taken' b => I (taken ++ taken') b)
    {before : List Word} {a : σ} (h : I before a) :
    Yields (foldWhile continues step a) first fun taken b => I (before ++ taken) b := by
  refine .of_any fun s s' c heq hscanned hany => ?_
  fun_induction Parser.foldWhile continues step a s generalizing before c s' with
  | case1 => simp at heq
  | case2 a s hcontinues b s₁ hfirst hlength ih =>
      obtain ⟨taken, htaken, hb⟩ := hstep before a h s s₁ b hfirst hscanned hcontinues
      have hscanned₁ := isScanned_left htaken hscanned
      obtain ⟨taken', htaken', hc⟩ := ih hb _ _ heq hscanned₁ trivial
      refine ⟨taken ++ taken', by rw [htaken, htaken', List.append_assoc], ?_⟩
      rwa [List.append_assoc] at hc
  | case3 a s hcontinues b s₁ hfirst hlength =>
      cases heq
      exact hstep before a h s s₁ b hfirst hscanned hcontinues
  | case4 a s hcontinues =>
      cases heq
      exact ⟨[], rfl, by simpa using h⟩

/-- An item, and others after separators. -/
lemma separatedBy {separator : Symbol} {item : Parser α} {R : List Word → List α → Prop}
    (hitem : Yields item AnyToken P) (hnil : R [] [])
    (hcons : ∀ (w : Word) taken taken' a as, w.kind = .symbol separator → P taken a →
      R taken' as → R (w :: (taken ++ taken')) (a :: as)) :
    Yields (separatedBy separator item) first fun taken as =>
      ∃ a as' head others, as = a :: as' ∧ taken = head ++ others ∧ P head a ∧ R others as' := by
  have hothers : Yields (Parser.many (· = .symbol separator) do
      Parser.symbol separator
      item) AnyToken R := by
    refine .many (P := fun taken a => ∃ w taken', taken = w :: taken' ∧ w.kind = .symbol separator ∧
      P taken' a) ?_ hnil ?_
    · exact .symbol fun w hw => hitem.mono fun taken a ha => ⟨w, taken, rfl, hw, ha⟩
    · rintro _ taken' a as ⟨w, taken, rfl, hw, ha⟩ has
      exact hcons w taken taken' a as hw ha has
  refine .bind hitem.of_any fun a head ha => .bind hothers fun as' others has => .pure ?_
  exact ⟨a, as', head, others, rfl, by rw [List.append_nil], ha, has⟩

end Yields

end Parser

end Concerto
