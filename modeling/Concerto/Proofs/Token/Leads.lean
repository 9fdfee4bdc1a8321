import Concerto.Proofs.Token.Stepwise

/-!
Where two tokens that follow each other lead a parser to.

* `Parser.Shuns`: at a token the parser is done, or it never goes on with it;
* `Parser.Comes`: past some tokens the parser comes to a goal, unless it is done before one of them or
  never goes on with one;
* `Parser.Leads`: whatever stands before them, two tokens lead the parser to a goal;
* `Parser.Leads.bind`, `Parser.Leads.many`: parsers in sequence and repetitions, where what goes on after
  a parser shuns the second of the tokens;
* `Parser.Comes.goal_of_ok`: so a parser that has read the two tokens has come to the goal there.

Only that a text is read is of interest here, and not why another one is not.
-/

namespace Concerto

namespace Parser

variable {α β : Type}

/-! ### Tokens that are not taken -/

/-- No text that goes on with the token is read. -/
def NeverAt (p : Parser α) (t : Token) : Prop := ∀ rest stop r, p ⟨t :: rest, stop⟩ ≠ .ok r

/-- At the token the parser is done, or it never goes on with it. -/
def Shuns (p : Parser α) (t : Token) : Prop := (∃ a, DoneAt p a t) ∨ NeverAt p t

variable {p q : Parser α} {f : α → Parser β} {t : Token}

lemma RefusesAt.neverAt (h : RefusesAt p t) : NeverAt p t := by
  obtain ⟨e, he⟩ := h
  intro rest stop r hr
  cases (he rest stop).symm.trans hr

namespace NeverAt

lemma congr (hq : NeverAt q t) (h : AgreesAt t p q) : NeverAt p t :=
  fun rest stop r hr => hq rest stop r ((h rest stop).symm.trans hr)

lemma bind (h : NeverAt p t) : NeverAt (p >>= f) t := by
  intro rest stop r hr
  obtain ⟨a, s, hfirst, -⟩ := Yields.exists_of_bind hr
  exact h rest stop (a, s) hfirst

lemma failAt (u : Token) (fault : GrammarFault) : NeverAt (failAt u fault : Parser α) t :=
  fun _ _ r => failAt_ne_ok u fault _ r

lemma failAt_bind (u : Token) (fault : GrammarFault) : NeverAt (Parser.failAt u fault >>= f) t :=
  (failAt u fault).bind

/-- A token is taken, and a fault is found at it. -/
lemma advance {f : Token → Parser β} (fault : GrammarFault)
    (h : f t = Parser.failAt t fault) : NeverAt (Parser.advance >>= f) t := by
  intro rest stop r hr
  have hr : f t ⟨rest, stop⟩ = .ok r := hr
  rw [h] at hr
  exact failAt_ne_ok t fault _ r hr

end NeverAt

namespace Shuns

lemma congr (hq : Shuns q t) (h : AgreesAt t p q) : Shuns p t :=
  hq.imp (fun ⟨a, ha⟩ => ⟨a, ha.congr h⟩) fun hnever => hnever.congr h

lemma pure (a : α) : Shuns (pure a) t := .inl ⟨a, fun _ _ => rfl⟩

lemma bind (hp : Shuns p t) (hf : ∀ a, Shuns (f a) t) : Shuns (p >>= f) t := by
  rcases hp with ⟨a, ha⟩ | hnever
  · exact (hf a).congr ha.agreesAt
  · exact .inr hnever.bind

/-- A parser that never goes on with the token shuns it after any other that shuns it. -/
lemma neverAt_bind (hp : Shuns p t) (hf : ∀ a, NeverAt (f a) t) : NeverAt (p >>= f) t := by
  rcases hp with ⟨a, ha⟩ | hnever
  · exact (hf a).congr ha.agreesAt
  · exact hnever.bind

end Shuns

/-- A token that would be taken if it were of another kind is left. -/
lemma takeNext_of_ne {kind : TokenKind} (f : Bool → Parser β) {s : TokenStream}
    (h : s.current.kind ≠ kind) :
    ((nextIs kind >>= fun isNext =>
      if isNext then advance >>= fun _ => pure true else pure false) >>= f) s = f false s := by
  rw [bind_assoc]
  show ((if decide (s.current.kind = kind) = true then advance >>= fun _ => pure true
    else pure false : Parser Bool) >>= f) s = _
  rw [decide_eq_false h]
  rfl

lemma takeKeyword_of_ne {k : Keyword} (f : Bool → Parser β) {s : TokenStream}
    (h : s.current.kind ≠ .keyword k) : (takeKeyword k >>= f) s = f false s := takeNext_of_ne f h

lemma agreesAt_takeSymbol {s : Symbol} (f : Bool → Parser β) (h : t.kind ≠ .symbol s) :
    AgreesAt t (takeSymbol s >>= f) (f false) := fun _ _ => takeNext_of_ne f h

lemma agreesAt_takeKeyword {k : Keyword} (f : Bool → Parser β) (h : t.kind ≠ .keyword k) :
    AgreesAt t (takeKeyword k >>= f) (f false) := fun _ _ => takeNext_of_ne f h

namespace NeverAt

lemma expect {kinds : List TokenKind} {f : Token → Parser β} (h : t.kind ∉ kinds) :
    NeverAt (expect kinds >>= f) t := (refusesAt_expect f h).neverAt

lemma symbol {s : Symbol} {f : Unit → Parser β} (h : t.kind ≠ .symbol s) :
    NeverAt (symbol s >>= f) t := by
  rw [symbol_bind]
  exact .expect (by simpa using h)

end NeverAt

section Repetitions

variable {view : TokenKind → TokenKind} {continues : TokenKind → Bool} {item : Parser α}

/-- A repetition that the token calls for never goes on with it if its items do not. -/
lemma NeverAt.many (hadvances : Advances view (fun t => continues t.kind = true) item item)
    (ht : continues t.kind = true) (hitem : NeverAt item t) : NeverAt (many continues item) t :=
  hitem.bind.congr (agreesAt_many hadvances ht)

/-- So does a loop whose step does not. -/
lemma NeverAt.foldWhile {σ : Type} {continues : σ → TokenKind → Bool} {step : σ → Parser σ} {c : σ}
    (hadvances : Advances view (fun t => continues c t.kind = true) (step c) (step c))
    (ht : continues c t.kind = true) (hstep : NeverAt (step c) t) :
    NeverAt (foldWhile continues step c) t :=
  hstep.bind.congr (agreesAt_foldWhile hadvances ht)

lemma Shuns.many (hadvances : Advances view (fun t => continues t.kind = true) item item)
    (hitem : continues t.kind = true → NeverAt item t) : Shuns (many continues item) t := by
  by_cases ht : continues t.kind = true
  · exact .inr (.many hadvances ht (hitem ht))
  · have hends : continues t.kind = false := by simpa using ht
    exact .inl ⟨[], fun _ _ => many_of_not_continues hends⟩

lemma Shuns.foldWhile {σ : Type} {continues : σ → TokenKind → Bool} {step : σ → Parser σ} {c : σ}
    (h : continues c t.kind = false) : Shuns (foldWhile continues step c) t :=
  .inl ⟨c, fun _ _ => foldWhile_of_not_continues h⟩

end Repetitions

/-! ### Coming to a goal -/

/-- Past the tokens the parser comes to a goal, unless it is done before one of them or never goes on
with one. -/
inductive Comes (goal : Parser α → Prop) : List Token → Parser α → Prop
  | here {p : Parser α} (h : goal p) : Comes goal [] p
  | done {p : Parser α} {t : Token} {tokens : List Token} (a : α) (h : DoneAt p a t) :
      Comes goal (t :: tokens) p
  | never {p : Parser α} {t : Token} {tokens : List Token} (h : NeverAt p t) :
      Comes goal (t :: tokens) p
  | takes {p : Parser α} {t : Token} {tokens : List Token} (h : Comes goal tokens (p.after [t])) :
      Comes goal (t :: tokens) p

namespace Comes

variable {goal : Parser α → Prop} {goal' : Parser β → Prop} {tokens : List Token}

lemma congr (hq : Comes goal (t :: tokens) q) (h : AgreesAt t p q) : Comes goal (t :: tokens) p := by
  cases hq with
  | done a ha => exact .done a (ha.congr h)
  | never hnever => exact .never (hnever.congr h)
  | takes htakes => exact .takes (h.after_eq ▸ htakes)

lemma of_shuns (h : Shuns p t) : Comes goal (t :: tokens) p := by
  rcases h with ⟨a, ha⟩ | hnever
  · exact .done a ha
  · exact .never hnever

/-- What goes on after the parser comes to a goal from wherever the parser may be done. -/
lemma bind (hp : Comes goal tokens p) (hgoal : ∀ q, goal q → goal' (q >>= f))
    (hf : ∀ a t after, t :: after <:+ tokens → Comes goal' (t :: after) (f a)) :
    Comes goal' tokens (p >>= f) := by
  induction hp with
  | here h => exact .here (hgoal _ h)
  | @done p t tokens a ha => exact (hf a t tokens List.suffix_rfl).congr ha.agreesAt
  | never hnever => exact .never hnever.bind
  | @takes p t tokens _ ih =>
      exact .takes (ih fun a u after hafter => hf a u after (hafter.trans (List.suffix_cons t tokens)))

/-- A parser that is read past the tokens is a goal there, if it is done nowhere before. -/
lemma goal_of_ok (h : Comes goal tokens p) (hdone : ∀ before t after, tokens = before ++ t :: after →
    ∀ a, ¬DoneAt (p.after before) a t) {rest : List Token} {stop : Place} {r : α × TokenStream}
    (hr : p ⟨tokens ++ rest, stop⟩ = .ok r) : goal (p.after tokens) := by
  induction h with
  | here h => exact h
  | @done p t tokens a ha => exact absurd ha (hdone [] t tokens rfl a)
  | never hnever => exact absurd hr (hnever _ _ _)
  | @takes p t tokens _ ih =>
      refine ih (fun before u after htokens a => ?_) hr
      subst htokens
      exact hdone (t :: before) u after rfl a

end Comes

/-! ### Two tokens -/

/-- Whatever stands before them, the two tokens lead the parser to a goal. -/
def Leads (a b : Token) (goal : Parser α → Prop) (p : Parser α) : Prop :=
  ∀ tokens, [a, b] <:+ tokens → Comes goal tokens p

/-- The two tokens lead the parser nowhere. -/
def Passes (a b : Token) (p : Parser α) : Prop := Leads a b (fun _ => False) p

variable {a b : Token} {goal : Parser α → Prop} {goal' : Parser β → Prop} {tokens : List Token}

/-- After a token there are both of the two, unless it is the first of them. -/
lemma rest_cases (h : [a, b] <:+ t :: tokens) : (t = a ∧ tokens = [b]) ∨ [a, b] <:+ tokens := by
  rcases List.suffix_cons_iff.mp h with heq | htail
  · obtain ⟨rfl, rfl⟩ := List.cons.inj heq
    exact .inl ⟨rfl, rfl⟩
  · exact .inr htail

/-- What is left of some tokens that end with the two is the second of them, or ends with both. -/
lemma suffix_cases {after : List Token} (h : [a, b] <:+ tokens) (hafter : t :: after <:+ tokens) :
    t :: after = [b] ∨ [a, b] <:+ t :: after := by
  cases after with
  | nil =>
      have hone : [t] <:+ [a, b] := List.suffix_of_suffix_length_le hafter h (by simp)
      refine .inl ?_
      simpa [List.suffix_cons_iff] using hone
  | cons u after => exact .inr (List.suffix_of_suffix_length_le h hafter (by simp))

namespace Leads

/-- It is told at the first token. -/
lemma of_token (h : ∀ t tokens, [a, b] <:+ t :: tokens → Comes goal (t :: tokens) p) :
    Leads a b goal p := by
  intro tokens htokens
  cases tokens with
  | nil => simp at htokens
  | cons t tokens => exact h t tokens htokens

/-- What goes on after the parser shuns the second token, which the parser may be done before. -/
lemma bind (hp : Leads a b goal p) (hgoal : ∀ q, goal q → goal' (q >>= f))
    (hf : ∀ v, Leads a b goal' (f v) ∧ Shuns (f v) b) : Leads a b goal' (p >>= f) := by
  refine fun tokens htokens => (hp tokens htokens).bind hgoal fun v t after hafter => ?_
  rcases suffix_cases htokens hafter with hlast | hboth
  · obtain ⟨rfl, rfl⟩ := List.cons.inj hlast
    exact .of_shuns (hf v).2
  · exact (hf v).1 _ hboth

/-- A parser that leads nowhere comes first. -/
lemma bind_passes (hp : Passes a b p) (hf : ∀ v, Leads a b goal' (f v) ∧ Shuns (f v) b) :
    Leads a b goal' (p >>= f) :=
  bind hp (fun _ hfalse => hfalse.elim) hf

/-! ### Single steps -/

lemma pure (v : α) : Leads a b goal (pure v) :=
  of_token fun _ _ _ => .done v fun _ _ => rfl

/-- A result is changed. -/
lemma map_passes {g : α → β} (hp : Passes a b p) : Passes a b (g <$> p) := by
  rw [← bind_pure_comp]
  exact bind_passes hp fun v => ⟨pure (g v), .pure (g v)⟩

lemma failAt (u : Token) (fault : GrammarFault) : Leads a b goal (failAt u fault : Parser α) :=
  of_token fun _ _ _ => .never (.failAt u fault)

lemma failAt_bind (u : Token) (fault : GrammarFault) :
    Leads a b goal' (Parser.failAt u fault >>= f) :=
  of_token fun _ _ _ => .never (.failAt_bind u fault)

/-- The next token is looked at. -/
lemma peek {f : Token → Parser β}
    (hf : ∀ t tokens, [a, b] <:+ t :: tokens → Comes goal' (t :: tokens) (f t)) :
    Leads a b goal' (peek >>= f) :=
  of_token fun t tokens h => (hf t tokens h).congr (agreesAt_peek f t)

/-- A token is taken. If it is the first of the two, the goal is up to it. -/
lemma comes_advance {f : Token → Parser β} (h : [a, b] <:+ t :: tokens)
    (hfirst : t = a → Comes goal' [b] (f a)) (hf : Leads a b goal' (f t)) :
    Comes goal' (t :: tokens) (advance >>= f) := by
  rcases rest_cases h with ⟨rfl, rfl⟩ | htail
  · exact .takes (hfirst rfl)
  · exact .takes (hf _ htail)

/-- A token of an expected kind. -/
lemma expect {kinds : List TokenKind} {f : Token → Parser β}
    (hfirst : a.kind ∈ kinds → Comes goal' [b] (f a))
    (hf : ∀ t, t.kind ∈ kinds → Leads a b goal' (f t)) : Leads a b goal' (expect kinds >>= f) := by
  refine of_token fun t tokens h => ?_
  by_cases ht : t.kind ∈ kinds
  · refine Comes.congr (comes_advance h (fun heq => ?_) (hf t ht)) (agreesAt_expect f ht)
    exact hfirst (heq ▸ ht)
  · exact .never (.expect ht)

lemma symbol {s : Symbol} {f : Unit → Parser β} (ha : a.kind ≠ .symbol s)
    (hf : Leads a b goal' (f ())) : Leads a b goal' (symbol s >>= f) := by
  rw [symbol_bind]
  exact .expect (fun h => absurd (by simpa using h) ha) fun _ _ => hf

/-- A choice by the next kind. -/
lemma nextIs {kind : TokenKind} {f : Bool → Parser β}
    (htrue : ∀ t tokens, t.kind = kind → [a, b] <:+ t :: tokens →
      Comes goal' (t :: tokens) (f true))
    (hfalse : Leads a b goal' (f false)) : Leads a b goal' (nextIs kind >>= f) := by
  refine of_token fun t tokens h => ?_
  by_cases ht : t.kind = kind
  · refine (htrue t tokens ht h).congr fun rest stop => ?_
    show f (decide (t.kind = kind)) _ = _
    rw [decide_eq_true ht]
  · refine (hfalse _ h).congr fun rest stop => ?_
    show f (decide (t.kind = kind)) _ = _
    rw [decide_eq_false ht]

/-- A token that is taken if it is of a kind, which the first of the two is not. -/
lemma takeNext {kind : TokenKind} {f : Bool → Parser β} (ha : a.kind ≠ kind)
    (htrue : Leads a b goal' (f true)) (hfalse : Leads a b goal' (f false)) :
    Leads a b goal' ((Parser.nextIs kind >>= fun isNext =>
      if isNext then advance >>= fun _ => Pure.pure true else Pure.pure false) >>= f) := by
  rw [bind_assoc]
  refine nextIs (fun t tokens ht h => ?_) hfalse
  exact comes_advance (f := fun _ => f true) h (fun heq => absurd (heq ▸ ht) ha) htrue

lemma takeSymbol {s : Symbol} {f : Bool → Parser β} (ha : a.kind ≠ .symbol s)
    (htrue : Leads a b goal' (f true)) (hfalse : Leads a b goal' (f false)) :
    Leads a b goal' (takeSymbol s >>= f) := takeNext ha htrue hfalse

lemma takeKeyword {k : Keyword} {f : Bool → Parser β} (ha : a.kind ≠ .keyword k)
    (htrue : Leads a b goal' (f true)) (hfalse : Leads a b goal' (f false)) :
    Leads a b goal' (takeKeyword k >>= f) := takeNext ha htrue hfalse

/-- A number that has a value, or else is not read. -/
lemma numberValue (value : Except NumberError α) : Leads a b goal (Parser.numberValue value) := by
  cases value with
  | ok v => exact pure v
  | error e => exact of_token fun _ _ _ => .never fun _ _ r hr => by cases hr

lemma numberValue_bind {γ : Type} {value : Except NumberError γ} {f : γ → Parser β}
    (hf : ∀ v, Leads a b goal' (f v)) : Leads a b goal' (Parser.numberValue value >>= f) := by
  cases value with
  | ok v => exact hf v
  | error e => exact of_token fun _ _ _ => .never fun _ _ r hr => by cases hr

/-! ### Repetitions -/

variable {view : TokenKind → TokenKind}

/-- Items, which the second token does not begin. -/
lemma many {continues : TokenKind → Bool} {item : Parser α} {goal' : Parser (List α) → Prop}
    (hadvances : Advances view (fun t => continues t.kind = true) item item)
    (hitem : Leads a b goal item)
    (hgoal : ∀ q, goal q →
      goal' (q >>= fun v => Parser.many continues item >>= fun vs => Pure.pure (v :: vs)))
    (hcons : ∀ q v, goal' q → goal' (q >>= fun vs => Pure.pure (v :: vs)))
    (hshuns : continues b.kind = true → NeverAt item b) :
    Leads a b goal' (many continues item) := by
  have hlast : Shuns (Parser.many continues item) b := .many hadvances hshuns
  intro tokens htokens
  induction hlength : tokens.length using Nat.strong_induction_on generalizing tokens with
  | _ n ih =>
      cases tokens with
      | nil => simp at htokens
      | cons t tokens =>
          -- the induction is on the number of tokens left, of which each item takes some
          by_cases ht : continues t.kind = true
          · refine Comes.congr ?_ (agreesAt_many hadvances ht)
            cases hitem _ htokens with
            | done v hv => exact absurd hv (hadvances.not_doneAt ht)
            | never hnever => exact .never hnever.bind
            | takes htakes =>
                refine .takes (htakes.bind hgoal fun v u after hafter => ?_)
                -- the next item begins before the two tokens, or with the second of them
                rcases suffix_cases htokens (hafter.trans (List.suffix_cons t tokens)) with
                  hone | hboth
                · obtain ⟨rfl, rfl⟩ := List.cons.inj hone
                  exact .of_shuns (hlast.bind fun _ => .pure _)
                · have hlt : (u :: after).length < n := by
                    have hle := hafter.length_le
                    simp only [List.length_cons] at hle hlength ⊢
                    omega
                  exact (ih _ hlt _ hboth rfl).bind (fun q => hcons q v) fun vs _ _ _ =>
                    .done (v :: vs) fun _ _ => rfl
          · have hends : continues t.kind = false := by simpa using ht
            exact .done [] fun _ _ => many_of_not_continues hends

/-- Items that lead nowhere. -/
lemma many_passes {continues : TokenKind → Bool} {item : Parser α}
    (hadvances : Advances view (fun t => continues t.kind = true) item item)
    (hitem : Passes a b item) (hshuns : continues b.kind = true → NeverAt item b) :
    Passes a b (Parser.many continues item) :=
  many hadvances hitem (fun _ => False.elim) (fun _ _ => False.elim) hshuns

/-- Steps that lead nowhere, which the second token does not call for. -/
lemma foldWhile {σ : Type} {continues : σ → TokenKind → Bool} {step : σ → Parser σ}
    (hadvances : ∀ c, Advances view (fun t => continues c t.kind = true) (step c) (step c))
    (hb : ∀ c, continues c b.kind = false)
    (hstep : ∀ c t tokens, continues c t.kind = true → [a, b] <:+ t :: tokens →
      Comes (fun _ => False) (t :: tokens) (step c)) (c : σ) :
    Passes a b (Parser.foldWhile continues step c) := by
  intro tokens htokens
  induction hlength : tokens.length using Nat.strong_induction_on generalizing tokens c with
  | _ n ih =>
      cases tokens with
      | nil => simp at htokens
      | cons t tokens =>
          by_cases ht : continues c t.kind = true
          · refine Comes.congr ?_ (agreesAt_foldWhile (hadvances c) ht)
            cases hstep c t tokens ht htokens with
            | done c' hc' => exact absurd hc' ((hadvances c).not_doneAt ht)
            | never hnever => exact .never hnever.bind
            | takes htakes =>
                refine .takes (htakes.bind (fun _ => False.elim) fun c' u after hafter => ?_)
                rcases suffix_cases htokens (hafter.trans (List.suffix_cons t tokens)) with
                  hone | hboth
                · obtain ⟨rfl, rfl⟩ := List.cons.inj hone
                  exact .of_shuns (.foldWhile (hb c'))
                · have hlt : (u :: after).length < n := by
                    have hle := hafter.length_le
                    simp only [List.length_cons] at hle hlength ⊢
                    omega
                  exact ih _ hlt c' _ hboth rfl
          · have hends : continues c t.kind = false := by simpa using ht
            exact .done c fun _ _ => foldWhile_of_not_continues hends

/-- Items with separators between them. -/
lemma separatedBy {separator : Symbol} {item : Parser α} (ha : a.kind ≠ .symbol separator)
    (hb : b.kind ≠ .symbol separator) (hitem : Passes a b item)
    (hretraces : Retraces exactly item item) : Passes a b (Parser.separatedBy separator item) := by
  have hothers : Passes a b (Parser.many (· = .symbol separator) do
      Parser.symbol separator
      item) :=
    many_passes (.symbol hretraces) (symbol ha hitem) fun _ => .symbol hb
  have hshuns : Shuns (Parser.many (· = .symbol separator) do
      Parser.symbol separator
      item) b :=
    .many (.symbol hretraces) fun _ => .symbol hb
  refine bind_passes hitem fun first => ⟨?_, hshuns.bind fun _ => .pure _⟩
  exact bind_passes hothers fun _ => ⟨.pure _, .pure _⟩

end Leads

end Parser

end Concerto
