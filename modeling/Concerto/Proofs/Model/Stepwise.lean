import Concerto.Proofs.Model.Retracing
import Concerto.Proofs.Token.Stepwise

/-!
Models are read token by token.

* `Parser.stepwise_decorators`, `Parser.stepwise_property`: the parts of a model that hold numbers;
* `Parser.stepwise_declaration`, `Parser.stepwise_model`: declarations, and all of a model.

Names, versions and imports hold no numbers, so that they may refuse a token that they have taken
before. What comes after a number ends in place.
-/

namespace Concerto

namespace Parser

variable {numbers : Bool}

/-! ### Names -/

lemma stepwise_typeName : Stepwise numbers typeName := by
  refine .expect (by simp) (by simp) fun t _ => ?_
  split
  · exact .failAt _ _
  · exact .pure _

lemma stepwise_anyName : Stepwise numbers anyName := by
  refine .of_decides (fun _ => .inr ⟨_, rfl⟩) (fun n t ht => .peek ?_) fun n => .refuses ?_
  · have htake : ∀ isName : Bool, DecidesAt (StepwiseFor numbers n)
        (if !isName then Parser.failAt t (.expectedName t.value)
          else if reservedWords.contains t.value then Parser.failAt t (.reservedName t.value)
          else do
            let _ ← advance
            return t.value) t := by
      intro isName
      split
      · exact (Stepwise.failAt _ _).decidesAt ht n
      split
      · exact (Stepwise.failAt _ _).decidesAt ht n
      · exact .advance (Stepwise.pure t.value n)
    exact htake _
  · rintro ⟨kind, value, place⟩ (rfl | rfl) <;>
      exact ⟨⟨.expectedName value, place⟩, fun _ _ => rfl⟩

lemma stepwise_qualifiedName : Stepwise numbers qualifiedName :=
  .bind (.separatedBy stepwise_anyName advances_anyName.retraces) fun _ => .pure _

/-! ### Version and imports -/

lemma stepwise_version : Stepwise numbers version := by
  refine .of_decides (fun _ => .inl ⟨none, rfl⟩) (fun n t ht => .peek ?_) fun n => .done none ?_
  · split
    · refine .advance (Stepwise.expect (by simp) (by simp) ?_ n)
      intro word _
      split
      · exact .failAt _ _
      · exact .expect (by simp) (by simp) fun range _ => .pure _
    · exact (Stepwise.pure none).decidesAt ht n
  · rintro ⟨kind, value, place⟩ (rfl | rfl) <;> exact fun _ _ => rfl

lemma stepwise_importPart (path : ImportPath) : Stepwise numbers (importPart path) := by
  refine .symbol (.bind (.takeSymbol _) fun star => ?_)
  split
  · exact .pure _
  refine .bind (.takeSymbol _) fun brace => ?_
  split
  · refine .bind (.separatedBy stepwise_typeName advances_typeName.retraces) fun names => ?_
    exact .symbol (.pure _)
  · exact .bind stepwise_anyName fun _ => .pure _

/-- The location of an import. -/
lemma stepwise_location {β : Type} {f : Option String → Parser β}
    (hf : ∀ uri, Stepwise numbers (f uri)) :
    Stepwise numbers
      (do
        let uri ←
          if ← takeKeyword .fromKw then pure (some (← expect [.uri]).value)
          else pure none
        f uri) := by
  refine .bind (.takeKeyword _) fun isGiven => ?_
  dsimp only
  split
  · exact .expect (by simp) (by simp) fun t _ => hf _
  · exact hf none

lemma stepwise_importStatement : Stepwise numbers importStatement := by
  have hpath : ∀ path, Stepwise false (foldWhile
      (fun path kind => path.names.isNone && kind = .symbol .dot) importPart path) := by
    refine .foldWhile (by simp) ?_ (fun path => advances_importPart path) fun n path t ht => ?_
    · rintro path kind (rfl | rfl) <;> simp
    · have hdot : t.kind = .symbol .dot := by simp_all
      exact (stepwise_importPart path).decidesAt (by simp [hdot]) n
  refine .expect (by simp) (by simp) fun keyword _ => ?_
  refine .bind stepwise_anyName fun part => .bind (hpath _) ?_
  rintro ⟨parts, names⟩
  cases names with
  | none =>
      dsimp only
      split
      · exact .failAt_bind _ _
      · refine stepwise_location fun uri => ?_
        cases parts.getLast? with
        | none => exact .pure _
        | some name => exact .pure _
  | some names =>
      refine stepwise_location fun uri => ?_
      cases names with
      | none => exact .pure _
      | some names => exact .pure _

/-! ### Decorators -/

lemma stepwise_arrayMarker : Stepwise numbers arrayMarker := by
  refine .bind (.takeSymbol _) fun isArray => ?_
  split
  · exact .symbol (.pure _)
  · exact .pure _

lemma stepwise_decoratorArgument : Stepwise true decoratorArgument := by
  refine .of_decides (fun _ => .inr ⟨_, rfl⟩) (fun n t ht => .peek ?_) fun n => ?_
  · have htype : Stepwise true (typeName >>= fun name => arrayMarker >>= fun isArray =>
        (pure (.type ⟨name, none⟩ isArray none) : Parser DecoratorArgument)) :=
      .bind stepwise_typeName fun name => .bind stepwise_arrayMarker fun isArray => .pure _
    split
    · exact .advance (Stepwise.pure _ n)
    · next h => exact absurd (.inl h) ht
    · next h => exact absurd (.inr h) ht
    · exact .advance (Stepwise.pure _ n)
    · exact .advance (Stepwise.pure _ n)
    · exact htype.decidesAt ht n
    · exact (Stepwise.failAt _ _).decidesAt ht n
  · refine .of_numberValue .double readDouble (fun d => .number d none) (fun _ => rfl) ?_ ?_
    · rintro ⟨kind, value, place⟩ ht
      rcases NumberUse.isNumber_of_mem ht with rfl | rfl <;> exact fun _ _ => rfl
    · intro t ht hother
      rcases ht with ht | ht <;> simp [ht, NumberUse.kinds] at hother

lemma stepwise_decoratorArguments : Stepwise true decoratorArguments := by
  refine .nextIs (by simp) (by simp) (fun n t ht => ?_) ?_
  · exact (Stepwise.pure []).decidesAt (by simp [ht]) n
  · exact .separatedBy stepwise_decoratorArgument advances_decoratorArgument.retraces

lemma stepwise_decorator : Stepwise true decorator := by
  refine .symbol (.bind stepwise_anyName fun name => .bind (.takeSymbol _) fun isCall => ?_)
  split
  · exact .bind_number stepwise_decoratorArguments (fun _ => .symbol (.pure _)) fun _ => .symbol
  · exact .pure _

lemma stepwise_decorators : Stepwise true decorators := by
  refine .bind_number (.many (by simp) (by simp) advances_decorator stepwise_decorator) ?_ ?_
  · intro list
    split
    · exact .pure _
    · exact .pure _
  · intro list
    split
    · exact .pure _
    · exact .pure _

/-! ### Properties -/

lemma stepwise_integerLiteral : Stepwise true integerLiteral :=
  .number .integer readInteger fun _ => rfl

lemma stepwise_doubleLiteral : Stepwise true doubleLiteral :=
  .number .double readDouble fun _ => rfl

lemma stepwise_booleanLiteral : Stepwise numbers booleanLiteral :=
  .expect (by simp) (by simp) fun _ _ => .pure _

/-- An end of a range, which is left out if the symbol after it is next. -/
lemma stepwise_rangeEnd {α β : Type} {bound : Parser α} {stop : Symbol} {f : Option α → Parser β}
    (hbound : Stepwise true bound) (hf : ∀ a, Stepwise true (f a)) (hend : ∀ a, EndsInPlace (f a)) :
    Stepwise true
      (do
        let a ← if ← nextIs (.symbol stop) then pure none else some <$> bound
        f a) := by
  refine .nextIs (by simp) (by simp) (fun n t ht => ?_) ?_
  · exact (hf none).decidesAt (by simp [ht]) n
  · exact .bind_number (.map hbound) hf hend

lemma stepwise_range {α : Type} {bound : Parser α} (hbound : Stepwise true bound) :
    Stepwise true (range bound) := by
  refine .symbol (stepwise_rangeEnd hbound (fun lower => ?_) fun lower => .symbol)
  refine .symbol (stepwise_rangeEnd hbound (fun upper => ?_) fun upper => .symbol)
  exact .symbol (.pure _)

/-- The value of a modifier. -/
lemma stepwise_modifierValue {keyword : Keyword} {kind : PropertyKind} {value : Parser PropertyKind}
    (h : modifierValue? keyword kind = some value) : Stepwise true value := by
  cases isModifierValue_of_modifierValue? h with
  | token hkind f =>
      rcases hkind with rfl | rfl <;> exact .expect (by simp) (by simp) fun t _ => .pure _
  | boolean => exact .bind stepwise_booleanLiteral fun _ => .pure _
  | double => exact .bind_number stepwise_doubleLiteral (fun _ => .pure _) fun _ => .pure _
  | integer => exact .bind_number stepwise_integerLiteral (fun _ => .pure _) fun _ => .pure _
  | doubles =>
      exact .bind_number (stepwise_range stepwise_doubleLiteral) (fun _ => .pure _) fun _ => .pure _
  | integers =>
      exact .bind_number (stepwise_range stepwise_integerLiteral) (fun _ => .pure _) fun _ => .pure _

/-- A modifier, whose keyword is next. -/
lemma decidesAt_modifier (type : String) (m : Modified) (n : Nat) (t : Token) :
    DecidesAt (StepwiseFor true n) (modifier type m) t := by
  refine .advance ?_
  revert n
  show Stepwise true _
  split
  · exact .pure _
  split
  · exact .failAt _ _
  split
  · exact .pure _
  dsimp only
  split
  · exact .failAt _ _
  · next value hvalue =>
      have hread := stepwise_modifierValue hvalue
      exact .symbol (.bind_number hread (fun _ => .pure _) fun _ => .pure _)

lemma stepwise_modifiers (type : String) (kind : PropertyKind) :
    Stepwise true (modifiers type kind) := by
  refine .foldWhile (fun _ => rfl) ?_ (advances_modifier type)
    (fun n m t _ => decidesAt_modifier type m n t) _
  rintro m kind (rfl | rfl) <;> rfl

lemma stepwise_property : Stepwise true property := by
  refine .bind_number stepwise_decorators (fun decorators => ?_) fun decorators => .expect (by simp)
  refine .expect (by simp) (by simp) fun marker _ => ?_
  refine .bind stepwise_typeName fun type => .bind stepwise_arrayMarker fun isArray => ?_
  refine .bind stepwise_anyName fun name => ?_
  exact .bind_number (stepwise_modifiers type _) (fun _ => .pure _) fun _ => .pure _

/-! ### Declarations -/

lemma stepwise_body {α : Type} {item : Parser α} (hitem : Stepwise true item)
    (hadvances : Advances exactly (fun t => continuesBody t.kind = true) item item) :
    Stepwise true (body item) := by
  refine .symbol (.bind_number (.many rfl rfl hadvances hitem) (fun items => ?_) fun _ => .symbol)
  exact .symbol (.pure _)

lemma stepwise_enumValue : Stepwise true enumValue := by
  refine .bind_number stepwise_decorators (fun decorators => ?_) fun decorators => .expect (by simp)
  refine .expect (by simp) (by simp) fun _ _ => ?_
  exact .bind stepwise_anyName fun _ => .pure _

lemma stepwise_enumeration (decorators : Option (List Decorator)) :
    Stepwise true (enumeration decorators) := by
  refine .expect (by simp) (by simp) fun _ _ => ?_
  refine .bind stepwise_typeName fun name => ?_
  exact .bind_number (stepwise_body stepwise_enumValue advances_enumValue) (fun _ => .pure _)
    fun _ => .pure _

/-- A clause, whose keyword is next. -/
lemma decidesAt_clause (c : Clauses) (n : Nat) (t : Token) :
    DecidesAt (StepwiseFor numbers n) (clause c) t := by
  refine .advance ?_
  revert n
  show Stepwise numbers _
  split
  · split
    · exact .failAt _ _
    · exact .bind stepwise_typeName fun _ => .pure _
  split
  · exact .failAt _ _
  refine .bind (.takeKeyword _) fun isNamed => ?_
  split
  · exact .bind stepwise_anyName fun _ => .pure _
  · exact .pure _

lemma stepwise_clauses : Stepwise numbers clauses := by
  refine .foldWhile (by simp) ?_ advances_clause (fun n c t _ => decidesAt_clause c n t) _
  rintro c kind (rfl | rfl) <;> rfl

/-- A concept, whose keyword is next. -/
lemma decidesAt_concept (kind : ConceptKind) (decorators : Option (List Decorator))
    (isAbstract : Bool) (n : Nat) (t : Token) :
    DecidesAt (StepwiseFor true n) (concept kind decorators isAbstract) t := by
  refine .advance ?_
  revert n
  show Stepwise true _
  refine .bind stepwise_typeName fun name => .bind stepwise_clauses fun c => ?_
  exact .bind_number (stepwise_body stepwise_property advances_property) (fun _ => .pure _)
    fun _ => .pure _

lemma stepwise_declaration : Stepwise true declaration := by
  refine .bind_number stepwise_decorators (fun decorators => ?_) fun decorators stop =>
    .inr ⟨.unexpectedAtTopLevel "", rfl⟩
  refine .bind (.takeKeyword _) fun isAbstract => ?_
  refine .of_decides (fun _ => .inr ⟨_, rfl⟩) (fun n t ht => .peek ?_) fun n => .refuses ?_
  · split
    · split
      · exact (Stepwise.failAt _ _).decidesAt ht n
      · refine (Stepwise.bind_number (stepwise_enumeration decorators) ?_ ?_).decidesAt ht n
        · exact fun _ => .pure _
        · exact fun _ => .pure _
    · next kind _ =>
        have hconcept := decidesAt_concept kind decorators isAbstract n t
        refine hconcept.bind (fun q hq => ?_) fun c _ => ?_
        · exact hq.bind (fun c => Stepwise.pure _ n) fun h => ⟨h, fun c => .pure _⟩
        · exact (Stepwise.pure _).decidesAt ht n
    · exact (Stepwise.failAt _ _).decidesAt ht n
  · rintro ⟨kind, value, place⟩ (rfl | rfl) <;>
      exact ⟨⟨.unexpectedAtTopLevel value, place⟩, fun _ _ => rfl⟩

lemma stepwise_model : Stepwise true model := by
  refine .bind stepwise_version fun version => ?_
  refine .expect (by simp) (by simp) fun _ _ => ?_
  refine .bind stepwise_qualifiedName fun ns => ?_
  refine .bind (.many (by simp) (by simp) advances_importStatement stepwise_importStatement) ?_
  intro imports
  refine .bind_number (.many rfl rfl advances_declaration stepwise_declaration) ?_ ?_
  · exact fun _ => .pure _
  · exact fun _ => .pure _

end Parser

end Concerto
