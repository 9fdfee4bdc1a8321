import Concerto.Proofs.Model.ImportSoundness
import Concerto.Proofs.Model.Stepwise
import Concerto.Proofs.Outcome

/-!
How the reading of a text fails.

* `Parser.NumberDue`: where in a model a number is due, and of which kind;
* `Parser.numberDue_iff`: that is where the parser asks for the value of a number;
* `Model.HasStrayNumber`: a text has a number without value where one is due;
* `Model.parse_outcome`: unless it has, the text has a model, or a fault in its tokens or in their
  order.
-/

namespace Concerto

/-- A zero, as a token of a kind. -/
def Token.zero (kind : TokenKind) (place : Place) : Token := ⟨kind, "0", place⟩

namespace Parser

/-- After some tokens of a model a number is due. A zero of a kind that may be read so is taken, so
that nothing is wrong with the text but perhaps its end, and a zero of another kind is not. -/
def NumberDue (use : NumberUse) (before : List Token) : Prop :=
  ∀ kind place, kind.IsNumber →
    (EndsInPlace (model.after (before ++ [.zero kind place])) ↔ kind ∈ use.kinds)

variable {use use' : NumberUse} {before : List Token}

/-- A zero has a value. -/
lemma fault?_zero (use : NumberUse) : use.fault? "0" = none := by
  cases use <;> rfl

lemma numberDue_of_readsNumber (h : ReadsNumber use (fun _ => True) (model.after before)) :
    NumberDue use before := by
  intro kind place hkind
  rw [after_append]
  refine ⟨fun hend => ?_, fun hmem => (h.value (.zero kind place) hmem (fault?_zero use)).2⟩
  by_contra hmem
  exact (h.other (.zero kind place) hkind hmem).not_endsInPlace [] hend

/-- Only one kind of number is due. -/
lemma NumberDue.unique (h : NumberDue use before) (h' : NumberDue use' before) : use = use' := by
  have hfloat : TokenKind.float ∈ use.kinds ↔ TokenKind.float ∈ use'.kinds :=
    (h .float .start (.inr rfl)).symm.trans (h' .float .start (.inr rfl))
  cases use <;> cases use' <;> simp [NumberUse.kinds] at hfloat ⊢

/-- A number is due where the parser asks for the value of one. -/
lemma numberDue_iff :
    NumberDue use before ↔ ReadsNumber use (fun _ => True) (model.after before) := by
  refine ⟨fun h => ?_, numberDue_of_readsNumber⟩
  have hmem : TokenKind.integer ∈ use.kinds := by cases use <;> simp [NumberUse.kinds]
  have hzero := (h .integer .start (.inl rfl)).mpr hmem
  obtain ⟨use', -, hreads⟩ := (stepwise_model (before.length + 1)).exists_readsNumber
    (t := .zero .integer .start) (.inl rfl) hzero
  rwa [h.unique (numberDue_of_readsNumber hreads)]

end Parser

namespace Model

/-- The text has a number without value where one is due. -/
def HasStrayNumber (source : String) (e : NumberError) : Prop :=
  ∃ before t rest stop use,
    scanTokens .start .start source.toList = .ok (before ++ t :: rest, stop) ∧
      Parser.NumberDue use before ∧ t.kind ∈ use.kinds ∧ use.fault? t.value = some e

variable {source : String}

/-- The reading of a text fails like its scanning or like the reading of its tokens. -/
lemma parse_eq_error_iff {e : SourceError} : parse source = .error e ↔
    (∃ e', scanTokens .start .start source.toList = .error e' ∧ .lexical e' = e) ∨
      ∃ tokens stop, scanTokens .start .start source.toList = .ok (tokens, stop) ∧
        Parser.model ⟨tokens, stop⟩ = .error e := by
  rw [parse, TokenStream.ofSource]
  cases scanTokens .start .start source.toList with
  | error e' => simp [bind, Except.bind]
  | ok r =>
      obtain ⟨tokens, stop⟩ := r
      have hmap : (Parser.model.run ⟨tokens, stop⟩).map (·.1) = .error e ↔
          Parser.model ⟨tokens, stop⟩ = .error e := map_eq_error
      simpa [bind, Except.bind, pure, Except.pure] using hmap

/-- The number of a text that is blamed for having no value stands where a number is due. -/
lemma parse_eq_number_iff {e : NumberError} :
    parse source = .error (.number e) ↔ HasStrayNumber source e := by
  rw [parse_eq_error_iff]
  constructor
  · rintro (⟨_, -, ⟨⟩⟩ | ⟨tokens, stop, hscan, hmodel⟩)
    obtain ⟨before, t, rest, use, rfl, hmem, hfault, hreads⟩ :=
      (Parser.stepwise_model (tokens.length + 1)).exists_of_number hmodel
    exact ⟨before, t, rest, stop, use, hscan, Parser.numberDue_iff.mpr hreads, hmem, hfault⟩
  · rintro ⟨before, t, rest, stop, use, hscan, hdue, hmem, hfault⟩
    exact .inr ⟨_, stop, hscan, (Parser.numberDue_iff.mp hdue).fault t e hmem hfault rest stop⟩

/-- A name that is read from scanned tokens passes the check that nodes make of their names. -/
lemma isIdentifier_of_name {s s' : TokenStream} {name : String}
    (hscanned : ∀ w ∈ s.words, w.IsScanned)
    (h : Parser.typeName s = .ok (name, s') ∨ Parser.anyName s = .ok (name, s')) :
    isIdentifier name = true := by
  rcases h with h | h
  · have hreads : Parser.Yields Parser.typeName Parser.AnyToken _ := Parser.yields_typeName
    obtain ⟨_, -, -, hname⟩ := hreads s s' name h hscanned trivial
    exact hname.1
  · have hreads : Parser.Yields Parser.anyName Parser.AnyToken _ := Parser.yields_anyName
    obtain ⟨_, -, -, hname⟩ := hreads s s' name h hscanned trivial
    exact hname

/-- A text has a model, or its tokens have a fault, or their order has one, unless a number without
value stands where one is due: then, and only then, the reading fails for that number. No name that
is read is refused by the node that it is for. -/
theorem parse_outcome (source : String) :
    ((∃ m, parse source = .ok m) ∨ (∃ e, parse source = .error (.lexical e)) ∨
        (∃ e, parse source = .error (.grammar e)) ↔ ∀ e, ¬HasStrayNumber source e) ∧
      (∀ e, parse source = .error (.number e) ↔ HasStrayNumber source e) ∧
      ∀ before rest stop name s',
        scanTokens .start .start source.toList = .ok (before ++ rest, stop) →
        Parser.typeName ⟨rest, stop⟩ = .ok (name, s') ∨
          Parser.anyName ⟨rest, stop⟩ = .ok (name, s') →
        isIdentifier name = true := by
  refine ⟨?_, fun e => parse_eq_number_iff, fun before rest stop name s' hscan hname => ?_⟩
  · simp only [← parse_eq_number_iff]
    rcases parse source with (e | e | e) | m <;> simp
  · refine isIdentifier_of_name (fun w hw => ?_) hname
    obtain ⟨t, ht, rfl⟩ := List.mem_map.mp hw
    exact (isScanned_of_scanTokens hscan).1 t (List.mem_append_right before ht)

/-- A text with a decorator that has a superscript digit for its argument. -/
def superscriptText : String := "namespace a @d(²) concept C {}"

/-- A digit that belongs to no decimal system makes up a number token, but one without value. -/
theorem parse_superscript : HasStrayNumber superscriptText (.notNumber "²") ∧
    ¬((∃ m, parse superscriptText = .ok m) ∨ (∃ e, parse superscriptText = .error (.lexical e)) ∨
      ∃ e, parse superscriptText = .error (.grammar e)) := by
  have hparse : parse superscriptText = .error (.number (.notNumber "²")) := by decide +kernel
  refine ⟨parse_eq_number_iff.mp hparse, ?_⟩
  simp [hparse]

end Model

end Concerto
