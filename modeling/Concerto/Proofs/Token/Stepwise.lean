import Concerto.Proofs.Token.Retraces

/-!
Parsers that decide token by token.

* `NumberUse`: as what a number token is read;
* `Parser.after`: a parser as it goes on after some tokens;
* `Parser.Stepwise`: at every token a parser is done, refuses the token or goes on after it, and if
  it goes on after a number it has asked for the value of the number;
* `Parser.Stepwise.bind`, `Parser.Stepwise.many`, `Parser.Stepwise.foldWhile`: so do parsers in
  sequence and repetitions;
* `Parser.StepwiseFor.exists_of_number`, `Parser.StepwiseFor.exists_readsNumber`: a number without a
  value is noticed where a parser has asked for one, and there it would have taken a zero.

A parser does not tell numbers apart but by their two kinds, before it asks for the value of one.
-/

namespace Concerto

/-! ### Numbers -/

/-- A token of the kind is a number. -/
def TokenKind.IsNumber (kind : TokenKind) : Prop := kind = .integer ∨ kind = .float

@[simp] lemma TokenKind.isNumber_iff {kind : TokenKind} :
    kind.IsNumber ↔ kind = .integer ∨ kind = .float := Iff.rfl

/-- Why there is no value. -/
def faultOf? {γ : Type} : Except NumberError γ → Option NumberError
  | .ok _ => none
  | .error e => some e

/-- As what a number token is read. -/
inductive NumberUse where
  | integer
  | double
  deriving DecidableEq

namespace NumberUse

/-- The kinds of the tokens that are read so. -/
def kinds : NumberUse → List TokenKind
  | integer => [.integer]
  | double => [.integer, .float]

/-- Why a text that is read so has no value. -/
def fault? : NumberUse → String → Option NumberError
  | integer, text => faultOf? (readInteger text)
  | double, text => faultOf? (readDouble text)

lemma isNumber_of_mem {use : NumberUse} {kind : TokenKind} (h : kind ∈ use.kinds) :
    kind.IsNumber := by
  cases use with
  | integer => exact .inl (List.mem_singleton.mp h)
  | double => simpa [kinds] using h

end NumberUse

namespace Parser

variable {α β : Type}

/-! ### Decisions -/

/-- The parser as it goes on after some tokens. -/
def after (p : Parser α) (tokens : List Token) : Parser α :=
  fun s => p ⟨tokens ++ s.ahead, s.stop⟩

@[simp] lemma after_nil (p : Parser α) : p.after [] = p := rfl

lemma after_append (p : Parser α) (tokens tokens' : List Token) :
    p.after (tokens ++ tokens') = (p.after tokens).after tokens' := by
  funext s
  rw [after, after, after, List.append_assoc]

/-- Where the text ends after the tokens. -/
lemma after_end (p : Parser α) (tokens : List Token) (stop : Place) :
    p.after tokens ⟨[], stop⟩ = p ⟨tokens, stop⟩ := by
  rw [after, List.append_nil]

/-- At the end of a text the parser is done or refuses to end there. -/
def DecidesEnd (p : Parser α) : Prop :=
  ∀ stop, (∃ a, p ⟨[], stop⟩ = .ok (a, ⟨[], stop⟩)) ∨ ∃ e, p ⟨[], stop⟩ = .error (.grammar e)

/-- At the end of a text the parser is done, or the fault is found right there. -/
def EndsInPlace (p : Parser α) : Prop :=
  ∀ stop, (∃ a, p ⟨[], stop⟩ = .ok (a, ⟨[], stop⟩)) ∨
    ∃ fault, p ⟨[], stop⟩ = .error (.grammar ⟨fault, stop⟩)

/-- The parser is done before the token. -/
def DoneAt (p : Parser α) (a : α) (t : Token) : Prop :=
  ∀ rest stop, p ⟨t :: rest, stop⟩ = .ok (a, ⟨t :: rest, stop⟩)

/-- The parser refuses the token, whatever follows it. -/
def RefusesAt (p : Parser α) (t : Token) : Prop :=
  ∃ e, ∀ rest stop, p ⟨t :: rest, stop⟩ = .error (.grammar e)

/-- At the token the parser is done, refuses, or goes on in a way that satisfies `next`. -/
inductive DecidesAt (next : Parser α → Prop) (p : Parser α) (t : Token) : Prop where
  | done (a : α) (h : DoneAt p a t)
  | refuses (h : RefusesAt p t)
  | takes (h : next (p.after [t]))

/-- The parser reads a number next, and goes on in a way that satisfies `next`. -/
structure ReadsNumber (use : NumberUse) (next : Parser α → Prop) (p : Parser α) : Prop where
  value : ∀ t : Token, t.kind ∈ use.kinds → use.fault? t.value = none →
    next (p.after [t]) ∧ EndsInPlace (p.after [t])
  fault : ∀ (t : Token) (e : NumberError), t.kind ∈ use.kinds → use.fault? t.value = some e →
    ∀ rest stop, p ⟨t :: rest, stop⟩ = .error (.number e)
  other : ∀ t : Token, t.kind.IsNumber → t.kind ∉ use.kinds → RefusesAt p t

/-- Before a number, whichever it is, the parser is done, or it refuses all of them, or reads one. -/
inductive DecidesNumber (numbers : Bool) (next : Parser α → Prop) (p : Parser α) : Prop where
  | done (a : α) (h : ∀ t : Token, t.kind.IsNumber → DoneAt p a t)
  | refuses (h : ∀ t : Token, t.kind.IsNumber → RefusesAt p t)
  | reads (use : NumberUse) (hnumbers : numbers = true) (h : ReadsNumber use next p)

/-- The parser decides token by token, as far as to the `n`-th token. It may read numbers only if
`numbers` are allowed; a parser that reads none may be followed by one that does not end in place. -/
def StepwiseFor (numbers : Bool) : Nat → Parser α → Prop
  | 0, _ => True
  | n + 1, p => DecidesEnd p ∧ (∀ t, ¬t.kind.IsNumber → DecidesAt (StepwiseFor numbers n) p t) ∧
      DecidesNumber numbers (StepwiseFor numbers n) p

/-- The parser decides token by token. -/
def Stepwise (numbers : Bool) (p : Parser α) : Prop := ∀ n, StepwiseFor numbers n p

variable {p q : Parser α} {f : α → Parser β} {numbers numbers' : Bool} {n : Nat} {t : Token}
  {next : Parser α → Prop} {next' : Parser β → Prop}

/-! ### What is known of the rest -/

/-- A result that is less telling of how the parser goes on. -/
lemma DecidesAt.imp {next' : Parser α → Prop} (hp : DecidesAt next p t)
    (hnext : ∀ q, next q → next' q) : DecidesAt next' p t := by
  cases hp with
  | done a ha => exact .done a ha
  | refuses h => exact .refuses h
  | takes h => exact .takes (hnext _ h)

lemma ReadsNumber.imp {next' : Parser α → Prop} {use : NumberUse} (hp : ReadsNumber use next p)
    (hnext : ∀ q, next q → next' q) : ReadsNumber use next' p where
  value t ht hvalue := ⟨hnext _ (hp.value t ht hvalue).1, (hp.value t ht hvalue).2⟩
  fault := hp.fault
  other := hp.other

lemma DecidesNumber.imp {next' : Parser α → Prop} (hp : DecidesNumber numbers next p)
    (hnext : ∀ q, next q → next' q) : DecidesNumber numbers next' p := by
  cases hp with
  | done a ha => exact .done a ha
  | refuses h => exact .refuses h
  | reads use hnumbers h => exact .reads use hnumbers (h.imp hnext)

/-! ### Agreement -/

/-- Two parsers do the same once the token is next. -/
def AgreesAt (t : Token) (p q : Parser α) : Prop :=
  ∀ rest stop, p ⟨t :: rest, stop⟩ = q ⟨t :: rest, stop⟩

lemma AgreesAt.after_eq (h : AgreesAt t p q) : p.after [t] = q.after [t] :=
  funext fun s => h s.ahead s.stop

lemma DoneAt.congr {a : α} (hq : DoneAt q a t) (h : AgreesAt t p q) : DoneAt p a t :=
  fun rest stop => (h rest stop).trans (hq rest stop)

lemma RefusesAt.congr (hq : RefusesAt q t) (h : AgreesAt t p q) : RefusesAt p t := by
  obtain ⟨e, he⟩ := hq
  exact ⟨e, fun rest stop => (h rest stop).trans (he rest stop)⟩

lemma DecidesAt.congr (hq : DecidesAt next q t) (h : AgreesAt t p q) : DecidesAt next p t := by
  cases hq with
  | done a ha => exact .done a (ha.congr h)
  | refuses hrefuses => exact .refuses (hrefuses.congr h)
  | takes htakes => exact .takes (h.after_eq ▸ htakes)

lemma DecidesNumber.congr (hq : DecidesNumber numbers next q)
    (h : ∀ t : Token, t.kind.IsNumber → AgreesAt t p q) : DecidesNumber numbers next p := by
  cases hq with
  | done a ha => exact .done a fun t ht => (ha t ht).congr (h t ht)
  | refuses hrefuses => exact .refuses fun t ht => (hrefuses t ht).congr (h t ht)
  | reads use hnumbers hreads =>
      have hagrees : ∀ t : Token, t.kind ∈ use.kinds → AgreesAt t p q :=
        fun t ht => h t (NumberUse.isNumber_of_mem ht)
      refine .reads use hnumbers ⟨fun t ht hvalue => ?_, fun t e ht he rest stop => ?_, ?_⟩
      · rw [(hagrees t ht).after_eq]
        exact hreads.value t ht hvalue
      · exact (hagrees t ht rest stop).trans (hreads.fault t e ht he rest stop)
      · exact fun t ht hother => (hreads.other t ht hother).congr (h t ht)

/-! ### One parser after another -/

lemma bind_ok {s s' : TokenStream} {a : α} (h : p s = .ok (a, s')) : (p >>= f) s = f a s' := by
  show (p s >>= fun r => f r.1 r.2) = _
  rw [h]
  rfl

lemma bind_error {s : TokenStream} {e : SourceError} (h : p s = .error e) :
    (p >>= f) s = .error e := by
  show (p s >>= fun r => f r.1 r.2) = _
  rw [h]
  rfl

/-- A parser that is done at a token leaves the decision to what goes on after it. -/
lemma DoneAt.agreesAt {a : α} (h : DoneAt p a t) : AgreesAt t (p >>= f) (f a) :=
  fun rest stop => bind_ok (h rest stop)

lemma RefusesAt.bind (h : RefusesAt p t) : RefusesAt (p >>= f) t := by
  obtain ⟨e, he⟩ := h
  exact ⟨e, fun rest stop => bind_error (he rest stop)⟩

lemma EndsInPlace.pure (a : α) : EndsInPlace (pure a : Parser α) := fun _ => .inl ⟨a, rfl⟩

lemma EndsInPlace.bind (hp : EndsInPlace p) (hf : ∀ a, EndsInPlace (f a)) :
    EndsInPlace (p >>= f) := by
  intro stop
  rcases hp stop with ⟨a, ha⟩ | ⟨fault, hfault⟩
  · rw [bind_ok ha]
    exact hf a stop
  · exact .inr ⟨fault, bind_error hfault⟩

lemma DecidesEnd.bind (hp : DecidesEnd p) (hf : ∀ a, DecidesEnd (f a)) : DecidesEnd (p >>= f) := by
  intro stop
  rcases hp stop with ⟨a, ha⟩ | ⟨e, he⟩
  · rw [bind_ok ha]
    exact hf a stop
  · exact .inr ⟨e, bind_error he⟩

lemma DecidesAt.bind (hp : DecidesAt next p t) (hnext : ∀ q, next q → next' (q >>= f))
    (hdone : ∀ a, DoneAt p a t → DecidesAt next' (f a) t) : DecidesAt next' (p >>= f) t := by
  cases hp with
  | done a ha => exact (hdone a ha).congr ha.agreesAt
  | refuses h => exact .refuses h.bind
  | takes h => exact .takes (hnext _ h)

lemma DecidesNumber.bind (hp : DecidesNumber numbers next p)
    (hnext : ∀ q, next q → next' (q >>= f))
    (hdone : ∀ a, (∀ t : Token, t.kind.IsNumber → DoneAt p a t) →
      DecidesNumber numbers' next' (f a))
    (hnumbers : numbers = true → numbers' = true ∧ ∀ a, EndsInPlace (f a)) :
    DecidesNumber numbers' next' (p >>= f) := by
  -- a number is passed over, refused, or read; only in the last case does the rest matter
  cases hp with
  | done a ha => exact (hdone a ha).congr fun t ht => (ha t ht).agreesAt
  | refuses h => exact .refuses fun t ht => (h t ht).bind
  | reads use htrue h =>
      obtain ⟨htrue', hend⟩ := hnumbers htrue
      refine .reads use htrue' ⟨fun t ht hvalue => ?_, fun t e ht he rest stop => ?_, ?_⟩
      · obtain ⟨hq, hq'⟩ := h.value t ht hvalue
        exact ⟨hnext _ hq, hq'.bind hend⟩
      · exact bind_error (h.fault t e ht he rest stop)
      · exact fun t ht hother => (h.other t ht hother).bind

/-- Decisions as far as to a token are decisions as far as to the one before. -/
lemma StepwiseFor.of_succ (hp : StepwiseFor numbers (n + 1) p) : StepwiseFor numbers n p := by
  induction n generalizing p with
  | zero => trivial
  | succ n ih =>
      obtain ⟨hend, htoken, hnumber⟩ := hp
      exact ⟨hend, fun t ht => (htoken t ht).imp fun q => ih, hnumber.imp fun q => ih⟩

lemma StepwiseFor.bind (hp : StepwiseFor numbers n p) (hf : ∀ a, StepwiseFor numbers' n (f a))
    (hnumbers : numbers = true → numbers' = true ∧ ∀ a, EndsInPlace (f a)) :
    StepwiseFor numbers' n (p >>= f) := by
  induction n generalizing p with
  | zero => trivial
  | succ n ih =>
      obtain ⟨hend, htoken, hnumber⟩ := hp
      have hnext : ∀ q, StepwiseFor numbers n q → StepwiseFor numbers' n (q >>= f) :=
        fun q hq => ih hq fun a => (hf a).of_succ
      refine ⟨hend.bind fun a => (hf a).1, fun t ht => ?_, ?_⟩
      · exact (htoken t ht).bind hnext fun a _ => (hf a).2.1 t ht
      · exact hnumber.bind hnext (fun a _ => (hf a).2.2) hnumbers

namespace Stepwise

/-- A parser that reads no number, and any parser after it. -/
lemma bind (hp : Stepwise false p) (hf : ∀ a, Stepwise numbers (f a)) :
    Stepwise numbers (p >>= f) :=
  fun n => (hp n).bind (fun a => hf a n) (by simp)

/-- A parser that may have read a number last, and one after it that ends in place. -/
lemma bind_number (hp : Stepwise true p) (hf : ∀ a, Stepwise true (f a))
    (hend : ∀ a, EndsInPlace (f a)) : Stepwise true (p >>= f) :=
  fun n => (hp n).bind (fun a => hf a n) fun _ => ⟨rfl, hend⟩

/-- What is decided at a token that is no number. -/
lemma decidesAt (hp : Stepwise numbers p) (ht : ¬t.kind.IsNumber) (n : Nat) :
    DecidesAt (StepwiseFor numbers n) p t := (hp (n + 1)).2.1 t ht

/-- What is decided at numbers. -/
lemma decidesNumber (hp : Stepwise numbers p) (n : Nat) :
    DecidesNumber numbers (StepwiseFor numbers n) p := (hp (n + 1)).2.2

lemma decidesEnd (hp : Stepwise numbers p) : DecidesEnd p := (hp 1).1

/-- A parser decides token by token if it does so at the first one. -/
lemma of_decides (hend : DecidesEnd p)
    (htoken : ∀ n t, ¬t.kind.IsNumber → DecidesAt (StepwiseFor numbers n) p t)
    (hnumber : ∀ n, DecidesNumber numbers (StepwiseFor numbers n) p) : Stepwise numbers p
  | 0 => trivial
  | n + 1 => ⟨hend, htoken n, hnumber n⟩

/-! ### Single steps -/

lemma pure (a : α) : Stepwise numbers (pure a : Parser α) :=
  of_decides (fun _ => .inl ⟨a, rfl⟩) (fun _ _ _ => .done a fun _ _ => rfl)
    fun _ => .done a fun _ _ _ _ => rfl

lemma failAt (t : Token) (fault : GrammarFault) : Stepwise numbers (failAt t fault : Parser α) :=
  of_decides (fun _ => .inr ⟨_, rfl⟩) (fun _ _ _ => .refuses ⟨_, fun _ _ => rfl⟩)
    fun _ => .refuses fun _ _ => ⟨_, fun _ _ => rfl⟩

/-- A failure, whatever would have gone on after it. -/
lemma failAt_bind (t : Token) (fault : GrammarFault) :
    Stepwise numbers (Parser.failAt t fault >>= f) :=
  failAt t fault

end Stepwise

/-- A token is taken. -/
lemma DecidesAt.advance {f : Token → Parser β} (h : next' (f t)) :
    DecidesAt next' (advance >>= f) t := .takes h

/-- The next token is looked at. -/
lemma agreesAt_peek (f : Token → Parser β) (t : Token) : AgreesAt t (peek >>= f) (f t) :=
  fun _ _ => rfl

lemma DecidesAt.peek {f : Token → Parser β} (h : DecidesAt next' (f t) t) :
    DecidesAt next' (peek >>= f) t := h.congr (agreesAt_peek f t)

/-- A token that is not of an expected kind is refused. -/
lemma refusesAt_expect {kinds : List TokenKind} (f : Token → Parser β) (h : t.kind ∉ kinds) :
    RefusesAt (expect kinds >>= f) t := by
  have hkind : kinds.contains t.kind = false := by simpa using h
  have hexpect : AgreesAt t (expect kinds) (failAt t (.expected kinds t.value)) := by
    intro rest stop
    show (if kinds.contains t.kind then advance else failAt t (.expected kinds t.value)) _ = _
    rw [hkind]
    rfl
  exact RefusesAt.bind (.congr ⟨_, fun _ _ => rfl⟩ hexpect)

/-- A token of an expected kind is taken. -/
lemma agreesAt_expect {kinds : List TokenKind} (f : Token → Parser β) (h : t.kind ∈ kinds) :
    AgreesAt t (expect kinds >>= f) (advance >>= f) := by
  have hkind : kinds.contains t.kind = true := by simpa using h
  intro rest stop
  show ((if kinds.contains t.kind then advance else failAt t (.expected kinds t.value)) >>= f) _ = _
  rw [hkind]
  rfl

/-- The end of a text is no token that is expected. -/
lemma EndsInPlace.expect {kinds : List TokenKind} {f : Token → Parser β} (h : .eof ∉ kinds) :
    EndsInPlace (expect kinds >>= f) := by
  have hkind : kinds.contains .eof = false := by simpa using h
  intro stop
  refine .inr ⟨.expected kinds "", ?_⟩
  show ((if kinds.contains .eof then advance
    else failAt ⟨.eof, "", stop⟩ (.expected kinds "")) >>= f) _ = _
  rw [hkind]
  rfl

lemma EndsInPlace.decidesEnd (h : EndsInPlace p) : DecidesEnd p := fun stop =>
  (h stop).imp_right fun ⟨_, hfault⟩ => ⟨_, hfault⟩

/-- A symbol before another parser is a token of an expected kind. -/
lemma symbol_bind (s : Symbol) (f : Unit → Parser β) :
    symbol s >>= f = expect [.symbol s] >>= fun _ => f () := by
  rw [symbol, bind_assoc]
  rfl

lemma EndsInPlace.symbol {s : Symbol} {f : Unit → Parser β} : EndsInPlace (symbol s >>= f) := by
  rw [symbol_bind]
  exact .expect (by simp)

namespace Stepwise

/-- A token of an expected kind, none of which is a number. -/
lemma expect {kinds : List TokenKind} {f : Token → Parser β} (heof : .eof ∉ kinds)
    (hnumber : ∀ kind ∈ kinds, ¬kind.IsNumber)
    (hf : ∀ t : Token, t.kind ∈ kinds → Stepwise numbers (f t)) :
    Stepwise numbers (expect kinds >>= f) := by
  refine of_decides (EndsInPlace.expect heof).decidesEnd (fun n t _ => ?_) fun n => ?_
  · by_cases ht : t.kind ∈ kinds
    · exact (DecidesAt.advance (hf t ht n)).congr (agreesAt_expect f ht)
    · exact .refuses (refusesAt_expect f ht)
  · exact .refuses fun t ht => refusesAt_expect f fun hmem => hnumber _ hmem ht

lemma symbol {s : Symbol} {f : Unit → Parser β} (hf : Stepwise numbers (f ())) :
    Stepwise numbers (symbol s >>= f) := by
  rw [symbol_bind]
  exact .expect (by simp) (by simp) fun _ _ => hf

/-- A result is changed. -/
lemma map {g : α → β} (hp : Stepwise numbers p) : Stepwise numbers (g <$> p) := by
  rw [← bind_pure_comp]
  exact fun n => (hp n).bind (fun a => pure (g a) n) fun h => ⟨h, fun a => .pure (g a)⟩

/-- A choice by the next kind, which is not asked about numbers. -/
lemma nextIs {kind : TokenKind} {f : Bool → Parser β} (heof : kind ≠ .eof)
    (hkind : ¬kind.IsNumber)
    (htrue : ∀ n t, t.kind = kind → DecidesAt (StepwiseFor numbers n) (f true) t)
    (hfalse : Stepwise numbers (f false)) : Stepwise numbers (nextIs kind >>= f) := by
  -- any other token, and the end, is treated as in the second case
  have hother : ∀ t : Token, t.kind ≠ kind → AgreesAt t (Parser.nextIs kind >>= f) (f false) := by
    intro t ht rest stop
    show f (decide (t.kind = kind)) _ = _
    rw [decide_eq_false ht]
  refine of_decides (fun stop => ?_) (fun n t ht => ?_) fun n => ?_
  · have hend : (Parser.nextIs kind >>= f) ⟨[], stop⟩ = f false ⟨[], stop⟩ := by
      show f (decide (.eof = kind)) _ = _
      rw [decide_eq_false heof.symm]
    rw [hend]
    exact hfalse.decidesEnd stop
  · by_cases heq : t.kind = kind
    · refine (htrue n t heq).congr fun rest stop => ?_
      show f (decide (t.kind = kind)) _ = _
      rw [decide_eq_true heq]
    · exact (hfalse.decidesAt ht n).congr (hother t heq)
  · exact (hfalse.decidesNumber n).congr fun t ht => hother t fun heq => hkind (heq ▸ ht)

/-- A symbol that may be there. -/
lemma takeSymbol (s : Symbol) : Stepwise numbers (takeSymbol s) :=
  .nextIs (by simp) (by simp) (fun n _ _ => .advance (pure true n)) (.pure false)

/-- A keyword that may be there. -/
lemma takeKeyword (k : Keyword) : Stepwise numbers (takeKeyword k) :=
  .nextIs (by simp) (by simp) (fun n _ _ => .advance (pure true n)) (.pure false)

end Stepwise

/-! ### Values of numbers -/

lemma numberValue_of_none {γ : Type} {value : Except NumberError γ} (h : faultOf? value = none) :
    ∃ v, numberValue value = pure v := by
  cases value with
  | ok v => exact ⟨v, rfl⟩
  | error e => cases h

lemma numberValue_of_some {γ : Type} {value : Except NumberError γ} {e : NumberError}
    (h : faultOf? value = some e) : numberValue value = throw (.number e) := by
  cases value with
  | ok v => cases h
  | error e' =>
      cases h
      rfl

/-- A parser that takes a number token for its value, and is done with it. -/
lemma DecidesNumber.of_numberValue {γ : Type} (use : NumberUse)
    (read : String → Except NumberError γ) (result : γ → α)
    (hread : ∀ text, use.fault? text = faultOf? (read text))
    (htakes : ∀ t : Token, t.kind ∈ use.kinds →
      AgreesAt t p (advance >>= fun _ => numberValue (read t.value) >>= fun v => pure (result v)))
    (hother : ∀ t : Token, t.kind.IsNumber → t.kind ∉ use.kinds → RefusesAt p t) :
    DecidesNumber true (StepwiseFor true n) p := by
  have hafter : ∀ t : Token, t.kind ∈ use.kinds →
      p.after [t] = numberValue (read t.value) >>= fun v => pure (result v) :=
    fun t ht => (htakes t ht).after_eq
  refine .reads use rfl ⟨fun t ht hvalue => ?_, fun t e ht he rest stop => ?_, hother⟩
  · obtain ⟨v, hv⟩ := numberValue_of_none ((hread t.value).symm.trans hvalue)
    rw [hafter t ht, hv, pure_bind]
    exact ⟨Stepwise.pure _ n, .pure _⟩
  -- a text without value is reported, with nothing read after it
  · have hv := numberValue_of_some ((hread t.value).symm.trans he)
    calc p ⟨t :: rest, stop⟩
        = p.after [t] ⟨rest, stop⟩ := rfl
      _ = (numberValue (read t.value) >>= fun v => pure (result v)) ⟨rest, stop⟩ := by
          rw [hafter t ht]
      _ = .error (.number e) := by
          rw [hv]
          rfl

/-- A number token of an expected kind, for its value. -/
lemma Stepwise.number {γ : Type} (use : NumberUse) (read : String → Except NumberError γ)
    (hread : ∀ text, use.fault? text = faultOf? (read text)) :
    Stepwise true (Parser.expect use.kinds >>= fun t => numberValue (read t.value)) := by
  have heof : .eof ∉ use.kinds := by cases use <;> simp [NumberUse.kinds]
  refine of_decides (EndsInPlace.expect heof).decidesEnd (fun n t ht => ?_) fun n => ?_
  · exact .refuses (refusesAt_expect _ fun hmem => ht (NumberUse.isNumber_of_mem hmem))
  · refine .of_numberValue use read (fun v => v) hread (fun t ht => ?_) fun t _ =>
      refusesAt_expect _
    intro rest stop
    rw [agreesAt_expect _ ht, bind_pure]
    rfl

/-! ### Repetitions -/

section Repetitions

variable {view : TokenKind → TokenKind}

/-- A parser that takes a token is not done before it. -/
lemma Advances.not_doneAt {first : Token → Prop} {a : α} (h : Advances view first p q)
    (ht : first t) : ¬DoneAt p a t := by
  intro hdone
  obtain ⟨w, taken, hwords, -⟩ := h _ _ _ (hdone [] t.place) ht
  exact absurd (length_ahead_lt hwords) (lt_irrefl _)

section Many

variable {continues : TokenKind → Bool} {item : Parser α}

/-- A repetition ends where nothing continues it. -/
lemma many_of_not_continues {s : TokenStream} (h : continues s.current.kind = false) :
    many continues item s = .ok ([], s) := by
  rw [many, if_neg (by simp [h])]

/-- An item that takes a token is followed by the rest of the repetition. -/
lemma agreesAt_many (hadvances : Advances view (fun t => continues t.kind = true) item item)
    (ht : continues t.kind = true) :
    AgreesAt t (many continues item)
      (item >>= fun a => many continues item >>= fun as => pure (a :: as)) := by
  intro rest stop
  rw [many, if_pos (show continues (TokenStream.current ⟨t :: rest, stop⟩).kind = true from ht)]
  cases hitem : item ⟨t :: rest, stop⟩ with
  | error e => exact (bind_error hitem).symm
  | ok r =>
      obtain ⟨a, s'⟩ := r
      obtain ⟨w, taken, hwords, -⟩ := hadvances _ _ _ hitem ht
      rw [bind_ok hitem]
      -- the repetition goes on only if the item has taken something, and it has
      dsimp only
      rw [if_pos (length_ahead_lt hwords)]
      cases hmany : many continues item s' with
      | error e => exact (bind_error hmany).symm
      | ok r =>
          rw [bind_ok hmany]
          rfl

lemma EndsInPlace.many (h : continues .eof = false) : EndsInPlace (many continues item) :=
  fun _ => .inl ⟨[], many_of_not_continues h⟩

lemma DecidesAt.many {next' : Parser (List α) → Prop}
    (hadvances : Advances view (fun t => continues t.kind = true) item item)
    (hitem : DecidesAt next item t)
    (hnext : ∀ q, next q →
      next' (q >>= fun a => Parser.many continues item >>= fun as => pure (a :: as))) :
    DecidesAt next' (many continues item) t := by
  by_cases ht : continues t.kind = true
  · refine DecidesAt.congr ?_ (agreesAt_many hadvances ht)
    exact hitem.bind hnext fun a ha => absurd ha (hadvances.not_doneAt ht)
  · have hends : continues t.kind = false := by simpa using ht
    exact .done [] fun rest stop => many_of_not_continues hends

lemma DecidesNumber.many {next' : Parser (List α) → Prop} (heof : continues .eof = false)
    (hkinds : continues .integer = continues .float)
    (hadvances : Advances view (fun t => continues t.kind = true) item item)
    (hitem : DecidesNumber numbers next item)
    (hnext : ∀ q, next q →
      next' (q >>= fun a => Parser.many continues item >>= fun as => pure (a :: as))) :
    DecidesNumber numbers next' (many continues item) := by
  have hnumber : ∀ t : Token, t.kind.IsNumber → continues t.kind = continues .integer := by
    rintro t (ht | ht)
    · rw [ht]
    · rw [ht, hkinds]
  -- either every number goes on with the repetition, or every number ends it
  cases hinteger : continues .integer with
  | true =>
      have hcontinues : ∀ t : Token, t.kind.IsNumber → continues t.kind = true :=
        fun t ht => (hnumber t ht).trans hinteger
      have hnot : ∀ a, ¬∀ t : Token, t.kind.IsNumber → DoneAt item a t := by
        intro a ha
        have hdone := ha ⟨.integer, "0", .start⟩ (.inl rfl)
        exact hadvances.not_doneAt hinteger hdone
      refine DecidesNumber.congr ?_ fun t ht => agreesAt_many hadvances (hcontinues t ht)
      refine hitem.bind hnext (fun a ha => absurd ha (hnot a)) fun h => ⟨h, fun a => ?_⟩
      exact (EndsInPlace.many heof).bind fun as => .pure _
  | false =>
      exact .done [] fun t ht rest stop => many_of_not_continues ((hnumber t ht).trans hinteger)

/-- Items that decide token by token, and take one at least. Whether there is another item does not
hang on the kind of a number. -/
lemma Stepwise.many (heof : continues .eof = false) (hkinds : continues .integer = continues .float)
    (hadvances : Advances view (fun t => continues t.kind = true) item item)
    (hitem : Stepwise numbers item) : Stepwise numbers (many continues item) := by
  intro n
  induction n with
  | zero => trivial
  | succ n ih =>
      have hnext : ∀ q, StepwiseFor numbers n q → StepwiseFor numbers n
          (q >>= fun a => Parser.many continues item >>= fun as => Pure.pure (a :: as)) := by
        refine fun q hq => hq.bind (fun a => ih.bind (fun as => Stepwise.pure _ n) ?_) ?_
        · exact fun h => ⟨h, fun as => .pure _⟩
        · exact fun h => ⟨h, fun a => (EndsInPlace.many heof).bind fun as => .pure _⟩
      exact ⟨(EndsInPlace.many heof).decidesEnd,
        fun t ht => .many hadvances (hitem.decidesAt ht n) hnext,
        .many heof hkinds hadvances (hitem.decidesNumber n) hnext⟩

end Many

section FoldWhile

variable {σ : Type} {continues : σ → TokenKind → Bool} {step : σ → Parser σ} {c : σ}

/-- A loop ends where nothing continues it. -/
lemma foldWhile_of_not_continues {s : TokenStream} (h : continues c s.current.kind = false) :
    foldWhile continues step c s = .ok (c, s) := by
  rw [foldWhile, if_neg (by simp [h])]

/-- A step that takes a token is followed by the rest of the loop. -/
lemma agreesAt_foldWhile
    (hadvances : Advances view (fun t => continues c t.kind = true) (step c) (step c))
    (ht : continues c t.kind = true) :
    AgreesAt t (foldWhile continues step c) (step c >>= foldWhile continues step) := by
  intro rest stop
  rw [foldWhile,
    if_pos (show continues c (TokenStream.current ⟨t :: rest, stop⟩).kind = true from ht)]
  cases hstep : step c ⟨t :: rest, stop⟩ with
  | error e => exact (bind_error hstep).symm
  | ok r =>
      obtain ⟨c', s'⟩ := r
      obtain ⟨w, taken, hwords, -⟩ := hadvances _ _ _ hstep ht
      rw [bind_ok hstep]
      exact if_pos (length_ahead_lt hwords)

lemma EndsInPlace.foldWhile (h : continues c .eof = false) :
    EndsInPlace (foldWhile continues step c) :=
  fun _ => .inl ⟨c, foldWhile_of_not_continues h⟩

/-- Steps that decide token by token where the loop calls for one, which no number does. -/
lemma Stepwise.foldWhile (heof : ∀ c, continues c .eof = false)
    (hkinds : ∀ c kind, kind.IsNumber → continues c kind = false)
    (hadvances : ∀ c, Advances view (fun t => continues c t.kind = true) (step c) (step c))
    (hstep : ∀ n c t, continues c t.kind = true →
      DecidesAt (StepwiseFor numbers n) (step c) t) (c : σ) :
    Stepwise numbers (foldWhile continues step c) := by
  intro n
  -- the induction is on the number of tokens that are looked at
  induction n generalizing c with
  | zero => trivial
  | succ n ih =>
      refine ⟨(EndsInPlace.foldWhile (heof c)).decidesEnd, fun t _ => ?_, ?_⟩
      · by_cases ht : continues c t.kind = true
        · refine DecidesAt.congr ?_ (agreesAt_foldWhile (hadvances c) ht)
          refine (hstep n c t ht).bind (fun q hq => hq.bind ih ?_) fun c' hc' =>
            absurd hc' ((hadvances c).not_doneAt ht)
          exact fun h => ⟨h, fun c' => .foldWhile (heof c')⟩
        · have hends : continues c t.kind = false := by simpa using ht
          exact .done c fun rest stop => foldWhile_of_not_continues hends
      · exact .done c fun t ht rest stop => foldWhile_of_not_continues (hkinds c t.kind ht)

end FoldWhile

/-- Items with separators between them. -/
lemma Stepwise.separatedBy {separator : Symbol} {item : Parser α} (hitem : Stepwise numbers item)
    (hretraces : Retraces exactly item item) : Stepwise numbers (separatedBy separator item) := by
  have hothers : Stepwise numbers (Parser.many (· = .symbol separator) do
      Parser.symbol separator
      item) :=
    .many (by simp) (by simp) (.symbol hretraces) (.symbol hitem)
  intro n
  refine (hitem n).bind (fun first => (hothers n).bind (fun others => Stepwise.pure _ n) ?_) ?_
  · exact fun h => ⟨h, fun others => .pure _⟩
  · exact fun h => ⟨h, fun first => (EndsInPlace.many (by simp)).bind fun others => .pure _⟩

end Repetitions

/-! ### Numbers without a value -/

/-- What the parser does at any token: it is done, refuses the token, goes on after it, or reads it
as a number and finds no value. -/
lemma StepwiseFor.cases_token (h : StepwiseFor numbers (n + 1) p) (t : Token) :
    (∃ a, DoneAt p a t) ∨ RefusesAt p t ∨ StepwiseFor numbers n (p.after [t]) ∨
      ∃ use e, ReadsNumber use (StepwiseFor numbers n) p ∧ t.kind ∈ use.kinds ∧
        use.fault? t.value = some e := by
  obtain ⟨-, htoken, hnumber⟩ := h
  -- all numbers are decided together, any other token by itself
  by_cases ht : t.kind.IsNumber
  · cases hnumber with
    | done a ha => exact .inl ⟨a, ha t ht⟩
    | refuses hrefuses => exact .inr (.inl (hrefuses t ht))
    | reads use _ hreads =>
        by_cases hmem : t.kind ∈ use.kinds
        · cases hfault : use.fault? t.value with
          | none => exact .inr (.inr (.inl (hreads.value t hmem hfault).1))
          | some e => exact .inr (.inr (.inr ⟨use, e, hreads, hmem, hfault⟩))
        · exact .inr (.inl (hreads.other t ht hmem))
  · cases htoken t ht with
    | done a ha => exact .inl ⟨a, ha⟩
    | refuses hrefuses => exact .inr (.inl hrefuses)
    | takes htakes => exact .inr (.inr (.inl htakes))

/-- A number is blamed for having no value only where the parser has asked for one. -/
lemma StepwiseFor.exists_of_number {tokens : List Token} {stop : Place} {e : NumberError}
    (h : StepwiseFor numbers (tokens.length + 1) p)
    (heq : p ⟨tokens, stop⟩ = .error (.number e)) :
    ∃ before t rest use, tokens = before ++ t :: rest ∧ t.kind ∈ use.kinds ∧
      use.fault? t.value = some e ∧ ReadsNumber use (fun _ => True) (p.after before) := by
  -- where the parser is done or refuses a token it ends otherwise, and where it goes on, fewer
  -- tokens are left
  induction tokens generalizing p with
  | nil =>
      rcases h.1 stop with ⟨a, ha⟩ | ⟨e', he'⟩
      · cases heq.symm.trans ha
      · cases heq.symm.trans he'
  | cons t tokens ih =>
      rcases h.cases_token t with ⟨a, ha⟩ | ⟨e', he'⟩ | htakes | ⟨use, e', hreads, hmem, hfault⟩
      · cases heq.symm.trans (ha tokens stop)
      · cases heq.symm.trans (he' tokens stop)
      · obtain ⟨before, t', rest, use, rfl, hmem, hfault, hreads⟩ := ih htakes heq
        refine ⟨t :: before, t', rest, use, rfl, hmem, hfault, ?_⟩
        rwa [← after_append] at hreads
      · cases heq.symm.trans (hreads.fault t e' hmem hfault tokens stop)
        exact ⟨[], t, tokens, use, rfl, hmem, hfault, hreads.imp fun _ _ => trivial⟩

/-- A parser that is done before a token does not go on to the end of a text. -/
lemma DoneAt.not_endsInPlace {a : α} (h : DoneAt p a t) (tokens : List Token) :
    ¬EndsInPlace (p.after (t :: tokens)) := by
  intro hend
  have hdone := (after_end p (t :: tokens) .start).trans (h tokens .start)
  rcases hend .start with ⟨b, hb⟩ | ⟨fault, hfault⟩
  · cases hdone.symm.trans hb
  · cases hdone.symm.trans hfault

/-- A parser that refuses a token does so at one place, wherever the text ends. -/
lemma RefusesAt.not_endsInPlace (h : RefusesAt p t) (tokens : List Token) :
    ¬EndsInPlace (p.after (t :: tokens)) := by
  obtain ⟨e, he⟩ := h
  intro hend
  have hplace : ∀ stop, e.place = stop := by
    intro stop
    have hrefuses := (after_end p (t :: tokens) stop).trans (he tokens stop)
    rcases hend stop with ⟨b, hb⟩ | ⟨fault, hfault⟩
    · cases hrefuses.symm.trans hb
    · cases hrefuses.symm.trans hfault
      rfl
  have hplaces : Place.start = ⟨0, 0⟩ := (hplace .start).symm.trans (hplace ⟨0, 0⟩)
  simp [Place.start] at hplaces

/-- Where a number would be taken up to the end of the text, the parser has asked for one. -/
lemma StepwiseFor.exists_readsNumber {before : List Token}
    (h : StepwiseFor numbers (before.length + 1) p) (ht : t.kind.IsNumber)
    (hend : EndsInPlace (p.after (before ++ [t]))) :
    ∃ use : NumberUse, t.kind ∈ use.kinds ∧ ReadsNumber use (fun _ => True) (p.after before) := by
  induction before generalizing p with
  | nil =>
      cases h.2.2 with
      | done a ha => exact absurd hend ((ha t ht).not_endsInPlace [])
      | refuses hrefuses => exact absurd hend ((hrefuses t ht).not_endsInPlace [])
      | reads use _ hreads =>
          by_cases hmem : t.kind ∈ use.kinds
          · exact ⟨use, hmem, hreads.imp fun _ _ => trivial⟩
          · exact absurd hend ((hreads.other t ht hmem).not_endsInPlace [])
  | cons t' before ih =>
      rcases h.cases_token t' with ⟨a, ha⟩ | hrefuses | htakes | ⟨use, e, hreads, hmem, hfault⟩
      · exact absurd hend (ha.not_endsInPlace _)
      · exact absurd hend (hrefuses.not_endsInPlace _)
      · exact ih htakes hend
      -- at a number without value the parser stops, whatever comes after it
      · have hnumber := (after_end p (t' :: (before ++ [t])) .start).trans
          (hreads.fault t' e hmem hfault (before ++ [t]) .start)
        rcases hend .start with ⟨b, hb⟩ | ⟨fault, hb⟩
        · cases hnumber.symm.trans hb
        · cases hnumber.symm.trans hb

end Parser

end Concerto
