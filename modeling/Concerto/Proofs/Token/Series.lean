import Concerto.Proofs.Token.Leads

/-!
Loops over a series of items.

* `Parser.Makes`: what a parser makes of some words, whatever follows them, or that it makes nothing;
* `Parser.foldlM_perm`: steps of which any two may be swapped have one result in every order;
* `Parser.ReadsItems`: each round of a loop reads an item and does with it what a partial function does;
* `Parser.ReadsItems.exists_of_some`, `Parser.ReadsItems.exists_of_none`: so the loop reads all of
  them, or fails where the partial functions do;
* `Parser.ReadsItems.nodup_of_ok`: no two of them are of a kind, if none is read after another of its
  kind;
* `Parser.ReadsItems.ok_of_foldlM_eq`: and items with the same effect may be read instead.
-/

namespace Concerto

namespace Parser

variable {α β : Type}

/-! ### What is made of some words -/

/-- Whatever follows them, the parser makes the result of the words, or fails if there is none. -/
def Makes (p : Parser α) (words : List Word) (result : Option α) : Prop :=
  ∀ (tokens : List Token) (s : TokenStream), tokens.map Token.word = words →
    (p ⟨tokens ++ s.ahead, s.stop⟩).toOption = result.map fun a => (a, s)

lemma toOption_bind (p : Parser α) (f : α → Parser β) (s : TokenStream) :
    ((p >>= f) s).toOption = (p s).toOption.bind fun r => (f r.1 r.2).toOption := by
  cases hp : p s with
  | error e =>
      rw [bind_error hp]
      rfl
  | ok r =>
      rw [bind_ok (show p s = .ok (r.1, r.2) from hp)]
      rfl

namespace Makes

variable {p : Parser α} {f : α → Parser β} {words words' : List Word} {result : Option α}
  {result' : Option β}

lemma pure (a : α) : Makes (pure a) [] (some a) := by
  intro tokens s htokens
  obtain rfl := List.map_eq_nil_iff.mp htokens
  rfl

lemma failAt (t : Token) (fault : GrammarFault) : Makes (failAt t fault : Parser α) words none :=
  fun _ _ _ => rfl

/-- Words of one parser, and words of another one after it. -/
lemma bind {g : α → Option β} (hp : Makes p words result) (hf : ∀ a, Makes (f a) words' (g a)) :
    Makes (p >>= f) (words ++ words') (result.bind g) := by
  intro tokens s htokens
  obtain ⟨first, second, rfl, hfirst, hsecond⟩ := List.map_eq_append_iff.mp htokens
  rw [toOption_bind, List.append_assoc, hp first ⟨second ++ s.ahead, s.stop⟩ hfirst]
  cases result with
  | none => rfl
  | some a => exact hf a second s hsecond

/-- A result is changed. -/
lemma bind_pure {g : α → β} (hp : Makes p words result) :
    Makes (p >>= fun a => Pure.pure (g a)) words (result.map g) := by
  have hbind := bind (g := fun a => some (g a)) hp fun a => pure (g a)
  rw [List.append_nil] at hbind
  cases result <;> exact hbind

/-- The next token is looked at. -/
lemma peek {f : Token → Parser β} {w : Word}
    (hf : ∀ t : Token, t.word = w → Makes (f t) (w :: words) result') :
    Makes (Parser.peek >>= f) (w :: words) result' := by
  intro tokens s htokens
  obtain ⟨t, others, rfl, ht, -⟩ := List.map_eq_cons_iff.mp htokens
  exact hf t ht _ s htokens

/-- The next token is taken. -/
lemma advance {f : Token → Parser β} {w : Word}
    (hf : ∀ t : Token, t.word = w → Makes (f t) words result') :
    Makes (Parser.advance >>= f) (w :: words) result' := by
  intro tokens s htokens
  obtain ⟨t, others, rfl, ht, hothers⟩ := List.map_eq_cons_iff.mp htokens
  exact hf t ht others s hothers

/-- A token of an expected kind. -/
lemma expect {kinds : List TokenKind} {f : Token → Parser β} {w : Word} (hmem : w.kind ∈ kinds)
    (hf : ∀ t : Token, t.word = w → Makes (f t) words result') :
    Makes (Parser.expect kinds >>= f) (w :: words) result' := by
  intro tokens s htokens
  obtain ⟨t, others, rfl, ht, hothers⟩ := List.map_eq_cons_iff.mp htokens
  have hkind : t.kind ∈ kinds := by rwa [← Token.word_kind, ht]
  rw [List.cons_append, agreesAt_expect f hkind]
  exact hf t ht others s hothers

/-- A token of another kind. -/
lemma expect_none {kinds : List TokenKind} {f : Token → Parser β} {w : Word} (hmem : w.kind ∉ kinds) :
    Makes (Parser.expect kinds >>= f) (w :: words) none := by
  intro tokens s htokens
  obtain ⟨t, others, rfl, ht, -⟩ := List.map_eq_cons_iff.mp htokens
  have hkind : t.kind ∉ kinds := by rwa [← Token.word_kind, ht]
  obtain ⟨e, he⟩ := refusesAt_expect f hkind
  rw [List.cons_append, he]
  rfl

lemma symbol {s : Symbol} {f : Unit → Parser β} (hf : Makes (f ()) words result') :
    Makes (Parser.symbol s >>= f) (.symbol s :: words) result' := by
  rw [symbol_bind]
  exact .expect (by simp) fun _ _ => hf

lemma numberValue (value : Except NumberError α) :
    Makes (numberValue value) [] value.toOption := by
  intro tokens s htokens
  obtain rfl := List.map_eq_nil_iff.mp htokens
  cases value <;> rfl

/-- A choice by the next kind. -/
lemma nextIs {kind : TokenKind} {f : Bool → Parser β} {w : Word}
    (hf : Makes (f (decide (w.kind = kind))) (w :: words) result') :
    Makes (Parser.nextIs kind >>= f) (w :: words) result' := by
  intro tokens s htokens
  obtain ⟨t, others, rfl, rfl, -⟩ := List.map_eq_cons_iff.mp htokens
  exact hf _ s htokens

/-- A symbol that is there. -/
lemma takeSymbol {s : Symbol} {f : Bool → Parser β} (hf : Makes (f true) words result') :
    Makes (Parser.takeSymbol s >>= f) (.symbol s :: words) result' := by
  rw [Parser.takeSymbol, bind_assoc]
  refine nextIs ?_
  rw [decide_eq_true (show Word.kind (.symbol s) = .symbol s from rfl)]
  exact advance fun _ _ => hf

/-- A symbol that is not there. -/
lemma takeSymbol_of_ne {s : Symbol} {f : Bool → Parser β} {w : Word} (h : w.kind ≠ .symbol s)
    (hf : Makes (f false) (w :: words) result') :
    Makes (Parser.takeSymbol s >>= f) (w :: words) result' := by
  rw [Parser.takeSymbol, bind_assoc]
  refine nextIs ?_
  rw [decide_eq_false h]
  exact hf

/-- Another parser after one that reads some words. -/
lemma bind_eq_ok_iff (hp : Makes p words result) {tokens : List Token} {s : TokenStream}
    {r : β × TokenStream} (htokens : tokens.map Token.word = words) :
    (p >>= f) ⟨tokens ++ s.ahead, s.stop⟩ = .ok r ↔ ∃ a, result = some a ∧ f a s = .ok r := by
  have hfirst := hp tokens s htokens
  cases hresult : p ⟨tokens ++ s.ahead, s.stop⟩ with
  | error e =>
      rw [hresult] at hfirst
      have hnone : result = none := by simpa [Except.toOption] using hfirst
      simp [bind_error hresult, hnone]
  | ok x =>
      obtain ⟨a, s'⟩ := x
      rw [hresult] at hfirst
      obtain ⟨a', ha', heq⟩ := Option.map_eq_some_iff.mp hfirst.symm
      cases heq
      simp [bind_ok hresult, ha']

end Makes

/-! ### Loops -/

/-- Steps of which any two may be swapped have the same result in every order. -/
lemma foldlM_perm {ι V : Type} {effect : V → ι → Option V}
    (hswap : ∀ v x y, (effect v x).bind (effect · y) = (effect v y).bind (effect · x))
    {items items' : List ι} (hperm : items.Perm items') (v : V) :
    items.foldlM effect v = items'.foldlM effect v := by
  induction hperm generalizing v with
  | nil => rfl
  | cons x _ ih =>
      rw [List.foldlM_cons, List.foldlM_cons]
      exact congrArg _ (funext ih)
  | swap x y items =>
      simp only [List.foldlM_cons, ← bind_assoc]
      exact congrArg (· >>= fun v => items.foldlM effect v) (hswap v y x)
  | trans _ _ ih ih' => exact (ih v).trans (ih' v)

/-- Of what the parsers make there is the same to see, and they go on alike. -/
def Alike {V : Type} (view : α → V) (p q : Parser α) : Prop :=
  ∀ s, (p s).toOption.map (Prod.map view id) = (q s).toOption.map (Prod.map view id)

namespace Alike

variable {V : Type} {view : β → V}

lemma refl (p : Parser β) : Alike view p p := fun _ => rfl

lemma pure {b b' : β} (h : view b = view b') : Alike view (pure b) (pure b') :=
  fun s => congrArg (fun v => some (v, s)) h

lemma bind {p : Parser α} {f g : α → Parser β} (h : ∀ a, Alike view (f a) (g a)) :
    Alike view (p >>= f) (p >>= g) := by
  intro s
  rw [toOption_bind, toOption_bind, Option.map_bind, Option.map_bind]
  exact congrArg _ (funext fun r => h r.1 r.2)

end Alike

/-- Each round of a loop reads an item. Of the state there is `view` to see, which the item has its
effect on unless the round fails. -/
structure ReadsItems {ι σ V : Type} (words : ι → List Word) (continues : TokenKind → Bool)
    (follows : TokenKind → Prop) (step : σ → Parser σ) (view : σ → V) (effect : V → ι → Option V) :
    Prop where
  advances : ∀ c, Advances exactly (fun t => continues t.kind = true) (step c) (step c)
  first : ∀ x, ∃ w ws, words x = w :: ws ∧ continues w.kind = true ∧ follows w.kind
  reads : ∀ (x : ι) (c : σ) (tokens : List Token) (s : TokenStream), tokens.map Token.word = words x →
    follows s.current.kind →
    (step c ⟨tokens ++ s.ahead, s.stop⟩).toOption.map (Prod.map view id) =
      (effect (view c) x).map fun v => (v, s)
  congr : ∀ c c', view c = view c' → Alike view (step c) (step c')

namespace ReadsItems

variable {ι σ V : Type} {words : ι → List Word} {continues : TokenKind → Bool}
  {follows : TokenKind → Prop} {step : σ → Parser σ} {view : σ → V} {effect : V → ι → Option V}
  {items : List ι} {c c' : σ} {v : V} {tokens : List Token} {s : TokenStream}

/-- What follows an item is the next one, or what follows all of them. -/
lemma follows_next (h : ReadsItems words continues follows step view effect)
    (htokens : tokens.map Token.word = items.flatMap words) (hfollows : follows s.current.kind) :
    follows (TokenStream.current ⟨tokens ++ s.ahead, s.stop⟩).kind := by
  cases items with
  | nil =>
      obtain rfl := List.map_eq_nil_iff.mp htokens
      exact hfollows
  | cons x items =>
      obtain ⟨w, ws, hwords, -, hw⟩ := h.first x
      rw [List.flatMap_cons, hwords] at htokens
      obtain ⟨t, others, rfl, rfl, -⟩ := List.map_eq_cons_iff.mp htokens
      exact hw

/-- The first round, and the rest of the loop. -/
lemma loop_cons (h : ReadsItems words continues follows step view effect) {x : ι}
    (htokens : tokens.map Token.word = words x) :
    foldWhile (fun _ => continues) step c ⟨tokens ++ s.ahead, s.stop⟩ =
      (step c >>= foldWhile (fun _ => continues) step) ⟨tokens ++ s.ahead, s.stop⟩ := by
  obtain ⟨w, ws, hwords, hw, -⟩ := h.first x
  rw [hwords] at htokens
  obtain ⟨t, others, rfl, rfl, -⟩ := List.map_eq_cons_iff.mp htokens
  exact agreesAt_foldWhile (h.advances c) hw (others ++ s.ahead) s.stop

/-- A round where the item has its effect. -/
lemma step_of_some (h : ReadsItems words continues follows step view effect) {x : ι}
    (htokens : tokens.map Token.word = words x) (hfollows : follows s.current.kind)
    (hv : effect (view c) x = some v) :
    ∃ c', view c' = v ∧ step c ⟨tokens ++ s.ahead, s.stop⟩ = .ok (c', s) := by
  have hreads := h.reads x c tokens s htokens hfollows
  rw [hv] at hreads
  cases hstep : step c ⟨tokens ++ s.ahead, s.stop⟩ with
  | error e => simp [hstep, Except.toOption] at hreads
  | ok r =>
      obtain ⟨c', s'⟩ := r
      rw [hstep] at hreads
      cases Option.some.inj hreads
      exact ⟨c', rfl, rfl⟩

/-- Where the items have their effects one after another, the loop reads all of them. -/
lemma exists_of_some (h : ReadsItems words continues follows step view effect)
    (htokens : tokens.map Token.word = items.flatMap words) (hfollows : follows s.current.kind)
    (hv : items.foldlM effect (view c) = some v) :
    ∃ c', view c' = v ∧ foldWhile (fun _ => continues) step c ⟨tokens ++ s.ahead, s.stop⟩ =
      foldWhile (fun _ => continues) step c' s := by
  induction items generalizing c tokens with
  | nil =>
      obtain rfl := List.map_eq_nil_iff.mp htokens
      exact ⟨c, Option.some.inj hv, rfl⟩
  | cons x items ih =>
      rw [List.flatMap_cons] at htokens
      obtain ⟨first, others, rfl, hfirst, hothers⟩ := List.map_eq_append_iff.mp htokens
      rw [List.foldlM_cons] at hv
      obtain ⟨v₁, hv₁, hv⟩ := Option.bind_eq_some_iff.mp hv
      have hnext := h.follows_next hothers hfollows
      obtain ⟨c₁, rfl, hstep⟩ := h.step_of_some hfirst hnext hv₁
      obtain ⟨c', hview, hloop⟩ := ih hothers hv
      refine ⟨c', hview, ?_⟩
      rw [List.append_assoc, h.loop_cons (s := ⟨others ++ s.ahead, s.stop⟩) hfirst, bind_ok hstep]
      exact hloop

/-- Where one of them has none, the loop fails. -/
lemma exists_of_none (h : ReadsItems words continues follows step view effect)
    (htokens : tokens.map Token.word = items.flatMap words) (hfollows : follows s.current.kind)
    (hv : items.foldlM effect (view c) = none) :
    ∃ e, foldWhile (fun _ => continues) step c ⟨tokens ++ s.ahead, s.stop⟩ = .error e := by
  induction items generalizing c tokens with
  | nil => cases hv
  | cons x items ih =>
      rw [List.flatMap_cons] at htokens
      obtain ⟨first, others, rfl, hfirst, hothers⟩ := List.map_eq_append_iff.mp htokens
      have hnext := h.follows_next hothers hfollows
      rw [List.append_assoc, h.loop_cons (s := ⟨others ++ s.ahead, s.stop⟩) hfirst]
      cases hx : effect (view c) x with
      | none =>
          have hreads := h.reads x c first ⟨others ++ s.ahead, s.stop⟩ hfirst hnext
          rw [hx] at hreads
          cases hstep : step c ⟨first ++ (others ++ s.ahead), s.stop⟩ with
          | error e => exact ⟨e, bind_error hstep⟩
          | ok r => simp [hstep, Except.toOption] at hreads
      | some v₁ =>
          rw [List.foldlM_cons, hx] at hv
          obtain ⟨c₁, rfl, hstep⟩ := h.step_of_some hfirst hnext hx
          rw [bind_ok hstep]
          exact ih hothers hv

/-- The loop goes on in the same way from two states of which there is the same to see. -/
lemma loop_congr (h : ReadsItems words continues follows step view effect) (hview : view c = view c') :
    Alike view (foldWhile (fun _ => continues) step c) (foldWhile (fun _ => continues) step c') := by
  intro s
  -- each step takes tokens, so the induction is on how many are left
  induction hlength : s.ahead.length using Nat.strong_induction_on generalizing c c' s with
  | _ n ih =>
      rw [foldWhile, foldWhile]
      split
      · have hstep := h.congr c c' hview s
        cases hc : step c s with
        | error e =>
            cases hc' : step c' s with
            | error e' => rfl
            | ok r => simp [hc, hc', Except.toOption] at hstep
        | ok r =>
            cases hc' : step c' s with
            | error e' => simp [hc, hc', Except.toOption] at hstep
            | ok r' =>
                obtain ⟨c₁, s₁⟩ := r
                obtain ⟨c₁', s₁'⟩ := r'
                rw [hc, hc'] at hstep
                obtain ⟨hsame, hrest⟩ := Prod.mk.inj (Option.some.inj hstep)
                obtain rfl : s₁ = s₁' := hrest
                dsimp only
                split
                · next hlt => exact ih _ (hlength ▸ hlt) hsame _ rfl
                · simp [Except.toOption, Prod.map, hsame]
      · simp [Except.toOption, Prod.map, hview]

/-- If the loop and what goes on after it succeed, the items have had their effects one after
another. -/
lemma exists_of_ok {β : Type} {rest : σ → Parser β} {r : β × TokenStream}
    (h : ReadsItems words continues follows step view effect)
    (htokens : tokens.map Token.word = items.flatMap words) (hfollows : follows s.current.kind)
    (hr : (foldWhile (fun _ => continues) step c >>= rest) ⟨tokens ++ s.ahead, s.stop⟩ = .ok r) :
    ∃ v c', items.foldlM effect (view c) = some v ∧ view c' = v ∧
      (foldWhile (fun _ => continues) step c' >>= rest) s = .ok r := by
  obtain ⟨c₁, s₁, hloop, hrest⟩ := Yields.exists_of_bind hr
  cases hv : items.foldlM effect (view c) with
  | none =>
      obtain ⟨e, he⟩ := h.exists_of_none htokens hfollows hv
      cases he.symm.trans hloop
  | some v =>
      obtain ⟨c', hview, heq⟩ := h.exists_of_some htokens hfollows hv
      exact ⟨v, c', rfl, hview, (bind_ok (heq.symm.trans hloop)).trans hrest⟩

/-- If no item is read once there has been one of its kind, and the loop and what goes on after it
succeed, the items are of different kinds, whatever follows them. -/
lemma nodup_of_ok {β κ : Type} {rest : σ → Parser β} {r : β × TokenStream} {kind : ι → κ}
    {had : V → κ → Prop} (h : ReadsItems words continues follows step view effect)
    (honce : ∀ v v' x, effect v x = some v' → ∀ k, k = kind x ∨ had v k → had v' k)
    (hrefuses : ∀ (c : σ) (x : ι) (t : Token), t.word ∈ (words x).head? → had (view c) (kind x) →
      NeverAt (step c) t)
    (htokens : tokens.map Token.word = items.flatMap words)
    (hr : (foldWhile (fun _ => continues) step c >>= rest) ⟨tokens ++ s.ahead, s.stop⟩ = .ok r) :
    (items.map kind).Nodup ∧ ∀ x ∈ items, ¬had (view c) (kind x) := by
  induction items generalizing c tokens with
  | nil => simp
  | cons x items ih =>
      rw [List.flatMap_cons] at htokens
      obtain ⟨first, others, rfl, hfirst, hothers⟩ := List.map_eq_append_iff.mp htokens
      -- if there had been one of its kind, the loop would fail at its first token
      have hnew : ¬had (view c) (kind x) := by
        intro hold
        obtain ⟨w, ws, hwords, hw, -⟩ := h.first x
        obtain ⟨t, tail, rfl, rfl, -⟩ := List.map_eq_cons_iff.mp (hfirst.trans hwords)
        have hnever := hrefuses c x t (by simp [hwords]) hold
        exact (NeverAt.foldWhile (h.advances c) hw hnever).bind _ _ _ hr
      rw [List.append_assoc] at hr
      -- of the last item no more can be said, since it is not known what follows it
      cases items with
      | nil => simpa using hnew
      | cons y items =>
          have hfollows : follows (TokenStream.current ⟨others ++ s.ahead, s.stop⟩).kind := by
            obtain ⟨w, ws, hwords, -, hw⟩ := h.first y
            rw [List.flatMap_cons, hwords] at hothers
            obtain ⟨t, tail, rfl, rfl, -⟩ := List.map_eq_cons_iff.mp hothers
            exact hw
          have hone : first.map Token.word = [x].flatMap words := by simpa using hfirst
          obtain ⟨v, c₁, hv, rfl, hr⟩ :=
            h.exists_of_ok (s := ⟨others ++ s.ahead, s.stop⟩) hone hfollows hr
          have hhad := honce (view c) (view c₁) x (by simpa using hv)
          obtain ⟨hnodup, hfresh⟩ := ih hothers hr
          refine ⟨List.nodup_cons.mpr ⟨fun hmem => ?_, hnodup⟩, List.forall_mem_cons.mpr ⟨hnew, ?_⟩⟩
          · obtain ⟨z, hz, heq⟩ := List.mem_map.mp hmem
            exact hfresh z hz (hhad _ (.inl heq))
          · exact fun z hz hold => hfresh z hz (hhad _ (.inr hold))

/-- Items with the same effect may be read instead, if what goes on after the loop depends on what is
seen of the state. -/
lemma ok_of_foldlM_eq {β : Type} {rest : σ → Parser β} {r : β × TokenStream} {items' : List ι}
    {tokens' : List Token} (h : ReadsItems words continues follows step view effect)
    (hrest : ∀ c c', view c = view c' → rest c = rest c')
    (htokens : tokens.map Token.word = items.flatMap words)
    (htokens' : tokens'.map Token.word = items'.flatMap words)
    (hsame : items.foldlM effect (view c) = items'.foldlM effect (view c))
    (hfollows : follows s.current.kind)
    (hr : (foldWhile (fun _ => continues) step c >>= rest) ⟨tokens ++ s.ahead, s.stop⟩ = .ok r) :
    (foldWhile (fun _ => continues) step c >>= rest) ⟨tokens' ++ s.ahead, s.stop⟩ = .ok r := by
  -- both lists leave states of which the same is seen, from which the loop goes on alike
  obtain ⟨v, c₁, hv, rfl, hr⟩ := h.exists_of_ok htokens hfollows hr
  obtain ⟨c₂, hview, heq⟩ := h.exists_of_some htokens' hfollows (hsame.symm.trans hv)
  obtain ⟨c₃, s₃, hloop, hr⟩ := Yields.exists_of_bind hr
  have halike := h.loop_congr hview s
  rw [hloop] at halike
  cases hloop' : foldWhile (fun _ => continues) step c₂ s with
  | error e => simp [hloop', Except.toOption] at halike
  | ok r' =>
      obtain ⟨c₄, s₄⟩ := r'
      rw [hloop'] at halike
      obtain ⟨hseen, hleft⟩ := Prod.mk.inj (Option.some.inj halike)
      obtain rfl : s₄ = s₃ := hleft
      rw [bind_ok (heq.trans hloop'), hrest c₄ c₃ hseen]
      exact hr

end ReadsItems

end Parser

end Concerto
