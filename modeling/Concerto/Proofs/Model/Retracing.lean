import Concerto.Proofs.Model.Words
import Concerto.Proofs.Token.Retraces

/-!
Declarations, imports and models that are read again.

* `Parser.advances_declaration`: a declaration is read in the same way whatever follows it;
* `Parser.advances_importStatement`: an import is, before the end of a text, another import or a
  declaration;
* `Parser.advances_model`: a model is, before the same kind.

Inside of a declaration the kind of the next word matters exactly; the brace at its end is what
makes that word irrelevant.
-/

namespace Concerto

namespace Parser

variable {view : TokenKind → TokenKind} {first : Token → Prop}

/-! ### Names -/

lemma advances_typeName : Advances view first typeName typeName := by
  refine .expect (by simp) fun t t' _ hword => ?_
  rw [(eq_of_word_eq hword).2]
  split
  · exact .failAt _ _
  · exact .pure _

lemma advances_anyName : Advances view first anyName anyName := by
  refine .peek fun t t' _ hword => ?_
  obtain ⟨hkind, hvalue⟩ := eq_of_word_eq hword
  -- both tokens have the kind and the value that the checks ask for
  have htake : ∀ isName : Bool, (isName = true → t.kind ≠ .eof) →
      Advances view (· = t)
        (if !isName then Parser.failAt t (.expectedName t.value)
          else if reservedWords.contains t.value then Parser.failAt t (.reservedName t.value)
          else do
            let _ ← advance
            return t.value)
        (if !isName then Parser.failAt t' (.expectedName t.value)
          else if reservedWords.contains t.value then Parser.failAt t' (.reservedName t.value)
          else do
            let _ ← advance
            return t.value) := by
    intro isName heof
    split
    · exact .failAt _ _
    next hname =>
    split
    · exact .failAt _ _
    · exact .advance (fun t₁ ht₁ => ht₁ ▸ heof (by simpa using hname)) fun _ _ _ _ => .pure _
  dsimp only
  rw [hkind, hvalue]
  split
  · next hidentifier => exact htake true fun _ heq => by simp [heq] at hidentifier
  · next k hkeyword => exact htake k.canBeName fun _ heq => by simp [heq] at hkeyword
  · exact htake false (by simp)

/-! ### Imports -/

/-- The kinds that follow an import. -/
def endsImport (kind : TokenKind) : Bool :=
  kind = .eof || kind = .keyword .importKw || beginsDeclaration kind

/-- An import does not tell the kinds that follow it from each other. -/
def importView (kind : TokenKind) : TokenKind := if endsImport kind then .eof else kind

lemma importView_eq_eof {kind : TokenKind} : importView kind = .eof ↔ endsImport kind = true := by
  unfold importView
  split
  · next h => simp [h]
  · next h => exact ⟨fun heof => absurd (by rw [heof]; rfl) h, fun hends => absurd hends h⟩

/-- A kind that does not follow an import is seen. -/
lemma discerns_importView {kind : TokenKind} (h : endsImport kind = false) :
    Discerns importView (· = kind) := by
  have hview : ∀ k, k = kind ↔ importView k = kind := by
    intro k
    unfold importView
    split
    · next hk =>
        constructor
        · rintro rfl
          rw [hk] at h
          contradiction
        · rintro rfl
          simp [endsImport] at h
    · exact Iff.rfl
  intro k k' hkk'
  rw [decide_eq_decide, hview k, hview k', hkk']

lemma advances_importPart (path : ImportPath) :
    Advances importView first (importPart path) (importPart path) := by
  refine .symbol (.bind (.takeSymbol (discerns_importView rfl)) fun star => ?_)
  split
  · exact .pure _
  refine .bind (.takeSymbol (discerns_importView rfl)) fun brace => ?_
  split
  · refine .bind (.separatedBy (discerns_importView rfl) advances_typeName.retraces) fun names => ?_
    exact Advances.retraces (.symbol (.pure _))
  · exact .bind advances_anyName.retraces fun _ => .pure _

/-- The location of an import. -/
lemma retraces_location {β : Type} {f : Option String → Parser β}
    (hf : ∀ uri, Retraces importView (f uri) (f uri)) :
    Retraces importView
      (do
        let uri ←
          if ← takeKeyword .fromKw then pure (some (← expect [.uri]).value)
          else pure none
        f uri)
      (do
        let uri ←
          if ← takeKeyword .fromKw then pure (some (← expect [.uri]).value)
          else pure none
        f uri) := by
  refine .bind (.takeKeyword (discerns_importView rfl)) fun isGiven => ?_
  dsimp only
  split
  · refine Advances.retraces (.expect (by simp) fun t t' _ hword => ?_)
    rw [(eq_of_word_eq hword).2]
    exact hf _
  · exact hf none

lemma advances_importStatement : Advances importView first importStatement importStatement := by
  have hpath : ∀ path : ImportPath,
      Discerns importView fun kind => path.names.isNone && kind = .symbol .dot :=
    fun path k k' hview => congrArg (path.names.isNone && ·) (discerns_importView rfl k k' hview)
  refine .expect (by simp) fun keyword keyword' _ hword => ?_
  refine .bind advances_anyName.retraces fun part => ?_
  refine .bind (.foldWhile hpath (fun path => advances_importPart path) _) ?_
  rintro ⟨parts, names⟩
  match names with
  | none =>
      dsimp only
      split
      · exact .failAt_bind _ _
      · refine retraces_location fun uri => ?_
        cases parts.getLast? with
        | none => exact .pure _
        | some name => exact .pure _
  | some names =>
      refine retraces_location fun uri => ?_
      cases names with
      | none => exact .pure _
      | some names => exact .pure _

/-! ### Decorators -/

lemma retraces_arrayMarker : Retraces exactly arrayMarker arrayMarker := by
  refine .bind (.takeSymbol (discerns_exactly _)) fun isArray => ?_
  split
  · exact Advances.retraces (.symbol (.pure _))
  · exact .pure _

lemma advances_decoratorArgument : Advances exactly first decoratorArgument decoratorArgument := by
  refine .peek fun t t' _ hword => ?_
  obtain ⟨hkind, hvalue⟩ := eq_of_word_eq hword
  have htake : ∀ {p : Parser DecoratorArgument}, t.kind ≠ .eof → Retraces exactly p p →
      Advances exactly (· = t) (advance >>= fun _ => p) (advance >>= fun _ => p) :=
    fun heof hp => .advance (fun t₁ ht₁ => ht₁ ▸ heof) fun _ _ _ _ => hp
  rw [hkind, hvalue]
  split
  · next h => exact htake (by simp [h]) (.pure _)
  · next h => exact htake (by simp [h]) (.bind (.numberValue _) fun _ => .pure _)
  · next h => exact htake (by simp [h]) (.bind (.numberValue _) fun _ => .pure _)
  · next h => exact htake (by simp [h]) (.pure _)
  · next h => exact htake (by simp [h]) (.pure _)
  · exact .bind advances_typeName fun _ => .bind retraces_arrayMarker fun _ => .pure _
  · exact .failAt _ _

lemma retraces_decoratorArguments : Retraces exactly decoratorArguments decoratorArguments := by
  refine .bind (.nextIs (discerns_exactly _)) fun isEmpty => ?_
  split
  · exact .pure _
  · exact .separatedBy (discerns_exactly _) advances_decoratorArgument.retraces

lemma advances_decorator : Advances exactly first decorator decorator := by
  refine .symbol (.bind advances_anyName.retraces fun name => ?_)
  refine .bind (.takeSymbol (discerns_exactly _)) fun isCall => ?_
  split
  · exact .bind retraces_decoratorArguments fun _ => Advances.retraces (.symbol (.pure _))
  · exact .pure _

lemma retraces_decorators : Retraces exactly decorators decorators := by
  refine .bind (.many (discerns_exactly _) advances_decorator) fun list => ?_
  split
  · exact .pure _
  · exact .pure _

/-! ### Properties -/

lemma retraces_integerLiteral : Retraces exactly integerLiteral integerLiteral := by
  refine Advances.retraces (.expect (by simp) fun t t' _ hword => ?_)
  rw [(eq_of_word_eq hword).2]
  exact .numberValue _

lemma retraces_doubleLiteral : Retraces exactly doubleLiteral doubleLiteral := by
  refine Advances.retraces (.expect (by simp) fun t t' _ hword => ?_)
  rw [(eq_of_word_eq hword).2]
  exact .numberValue _

lemma retraces_booleanLiteral : Retraces exactly booleanLiteral booleanLiteral := by
  refine Advances.retraces (.expect (by simp) fun t t' _ hword => ?_)
  rw [(eq_of_word_eq hword).1]
  exact .pure _

/-- A token that the value of a modifier consists of. -/
lemma retraces_token {α : Type} {kind : TokenKind} (heof : kind ≠ .eof) (value : String → α) :
    Retraces exactly (do return value (← expect [kind]).value)
      (do return value (← expect [kind]).value) := by
  refine Advances.retraces (.expect (by simpa using heof.symm) fun t t' _ hword => ?_)
  rw [(eq_of_word_eq hword).2]
  exact .pure _

/-- An end of a range, which is left out if the symbol after it is next. -/
lemma retraces_rangeEnd {α β : Type} {bound : Parser α} {stop : Symbol} {f : Option α → Parser β}
    (hbound : Retraces exactly bound bound) (hf : ∀ a, Retraces exactly (f a) (f a)) :
    Retraces exactly
      (do
        let a ← if ← nextIs (.symbol stop) then pure none else some <$> bound
        f a)
      (do
        let a ← if ← nextIs (.symbol stop) then pure none else some <$> bound
        f a) := by
  refine .bind (.nextIs (discerns_exactly _)) fun isLeftOut => ?_
  dsimp only
  split
  · exact hf none
  · exact .bind (.map hbound) hf

lemma retraces_range {α : Type} {bound : Parser α} (hbound : Retraces exactly bound bound) :
    Retraces exactly (range bound) (range bound) := by
  refine Advances.retraces (.symbol (retraces_rangeEnd hbound fun lower => ?_))
  refine Advances.retraces (.symbol (retraces_rangeEnd hbound fun upper => ?_))
  exact Advances.retraces (.symbol (.pure _))

/-- The value of a modifier is made of one token, of a literal or of a range. -/
inductive IsModifierValue : Parser PropertyKind → Prop
  | token {kind : TokenKind} (hkind : kind = .string ∨ kind = .regex) (f : String → PropertyKind) :
      IsModifierValue (do return f (← expect [kind]).value)
  | boolean (f : Bool → PropertyKind) : IsModifierValue (do return f (← booleanLiteral))
  | double (f : Double → PropertyKind) : IsModifierValue (do return f (← doubleLiteral))
  | integer (f : Int → PropertyKind) : IsModifierValue (do return f (← integerLiteral))
  | doubles (f : Bounds Double → PropertyKind) :
      IsModifierValue (do return f (← range doubleLiteral))
  | integers (f : Bounds Int → PropertyKind) :
      IsModifierValue (do return f (← range integerLiteral))

lemma isModifierValue_of_modifierValue? {keyword : Keyword} {kind : PropertyKind}
    {value : Parser PropertyKind} (h : modifierValue? keyword kind = some value) : IsModifierValue value := by
  unfold modifierValue? at h
  split at h
  · cases kind with
    | relationship | dateTime => simp [defaultValue?] at h
    | object type _ =>
        cases h
        exact .token (.inl rfl) fun value => .object type (some value)
    | string _ pattern =>
        cases h
        exact .token (.inl rfl) fun value => .string (some value) pattern
    | boolean =>
        cases h
        exact .boolean _
    | double =>
        cases h
        exact .double _
    | integer | long =>
        cases h
        exact .integer _
  · cases kind with
    | string default _ =>
        cases h
        exact .token (.inr rfl) fun value => .string default (some (splitPattern value))
    | _ => simp [patternValue?] at h
  · cases kind with
    | double =>
        cases h
        exact .doubles _
    | integer | long =>
        cases h
        exact .integers _
    | _ => simp [rangeValue?] at h
  · simp at h

lemma retraces_modifierValue {keyword : Keyword} {kind : PropertyKind} {value : Parser PropertyKind}
    (h : modifierValue? keyword kind = some value) : Retraces exactly value value := by
  cases isModifierValue_of_modifierValue? h with
  | token hkind f => exact retraces_token (by rcases hkind with rfl | rfl <;> simp) f
  | boolean => exact .bind retraces_booleanLiteral fun _ => .pure _
  | double => exact .bind retraces_doubleLiteral fun _ => .pure _
  | integer => exact .bind retraces_integerLiteral fun _ => .pure _
  | doubles => exact .bind (retraces_range retraces_doubleLiteral) fun _ => .pure _
  | integers => exact .bind (retraces_range retraces_integerLiteral) fun _ => .pure _

lemma advances_modifier (type : String) (m : Modified) :
    Advances exactly (fun t => (modifierOf? t.kind).isSome = true) (modifier type m)
      (modifier type m) := by
  refine .advance (fun t ht heof => by simp [heof, modifierOf?] at ht) fun t t' _ hword => ?_
  rw [(eq_of_word_eq hword).1]
  split
  · exact .pure _
  split
  · exact .failAt _ _
  split
  · exact .pure _
  dsimp only
  split
  · exact .failAt _ _
  · next value hvalue =>
      exact Advances.retraces (.symbol (.bind (retraces_modifierValue hvalue) fun _ => .pure _))

lemma retraces_modifiers (type : String) (kind : PropertyKind) :
    Retraces exactly (modifiers type kind) (modifiers type kind) :=
  .foldWhile (fun _ => discerns_exactly _) (advances_modifier type) _

lemma advances_property : Advances exactly first property property := by
  refine .bind_last retraces_decorators fun decorators => ?_
  refine .expect (by simp) fun marker marker' _ hword => ?_
  rw [(eq_of_word_eq hword).1]
  refine .bind advances_typeName.retraces fun type => ?_
  refine .bind retraces_arrayMarker fun isArray => ?_
  refine .bind advances_anyName.retraces fun name => ?_
  exact .bind (retraces_modifiers type _) fun _ => .pure _

/-! ### Declarations -/

/-- Nothing is seen of what follows the closing brace of a list. -/
lemma advances_body {α : Type} {item : Parser α}
    (hitem : Advances exactly (fun t => continuesBody t.kind = true) item item) :
    Advances view first (body item) (body item) := by
  have hrest : ∀ items : List α, Advances view AnyToken
      (symbol .closeBrace >>= fun _ => Pure.pure items)
      (symbol .closeBrace >>= fun _ => Pure.pure items) :=
    fun items => .symbol (.pure items)
  exact .symbol (Advances.bind_last (.many (discerns_exactly _) hitem) hrest).retraces

lemma advances_enumValue : Advances exactly first enumValue enumValue := by
  refine .bind_last retraces_decorators fun decorators => ?_
  exact .expect (by simp) fun _ _ _ _ => .bind advances_anyName.retraces fun _ => .pure _

lemma advances_enumeration (decorators : Option (List Decorator)) :
    Advances view first (enumeration decorators) (enumeration decorators) := by
  refine .expect (by simp) fun _ _ _ _ => .bind advances_typeName.retraces fun name => ?_
  exact .bind (advances_body advances_enumValue).retraces fun _ => .pure _

lemma advances_clause (c : Clauses) :
    Advances exactly (fun t => (t.kind = .keyword .identifiedKw || t.kind = .keyword .extendsKw) = true)
      (clause c) (clause c) := by
  refine .advance (fun t ht heof => by simp [heof] at ht) fun t t' _ hword => ?_
  rw [(eq_of_word_eq hword).1]
  split
  · split
    · exact .failAt _ _
    · exact .bind advances_typeName.retraces fun _ => .pure _
  split
  · exact .failAt _ _
  refine .bind (.takeKeyword (discerns_exactly _)) fun isNamed => ?_
  split
  · exact .bind advances_anyName.retraces fun _ => .pure _
  · exact .pure _

lemma retraces_clauses : Retraces exactly clauses clauses :=
  .foldWhile (fun _ => discerns_exactly _) advances_clause _

lemma advances_concept (kind : ConceptKind) (decorators : Option (List Decorator))
    (isAbstract : Bool) :
    Advances view (fun t => t.kind = .keyword (.conceptKw kind)) (concept kind decorators isAbstract)
      (concept kind decorators isAbstract) := by
  refine .advance (fun t ht heof => by simp [heof] at ht) fun _ _ _ _ => ?_
  refine .bind advances_typeName.retraces fun name => ?_
  refine Advances.retraces (.bind_last retraces_clauses fun c => ?_)
  exact .bind (advances_body advances_property) fun _ => .pure _

lemma advances_declaration : Advances blindly first declaration declaration := by
  refine .bind_last retraces_decorators fun decorators => ?_
  -- no more than the kind of the next token decides
  refine .bind_last (.takeKeyword (discerns_exactly _)) fun isAbstract => ?_
  refine .peek fun t t' _ hword => ?_
  obtain ⟨hkind, hvalue⟩ := eq_of_word_eq hword
  rw [hkind, hvalue]
  split
  · split
    · exact .failAt _ _
    · exact .bind (advances_enumeration decorators) fun _ => .pure _
  · next kind hconcept =>
      have hkind : ∀ t₁, t₁ = t → t₁.kind = .keyword (.conceptKw kind) := by
        rintro _ rfl
        exact hconcept
      exact .bind ((advances_concept kind decorators isAbstract).imp hkind) fun _ => .pure _
  · exact .failAt _ _

/-! ### Models -/

lemma retraces_qualifiedName : Retraces exactly qualifiedName qualifiedName :=
  .map (.separatedBy (discerns_exactly _) advances_anyName.retraces)

/-- A version that may be there, before more words. -/
lemma advances_version {β : Type} {f : Option String → Parser β}
    (hf : ∀ v, Advances exactly AnyToken (f v) (f v)) :
    Advances exactly first (version >>= f) (version >>= f) := by
  have hassoc : version >>= f = peek >>= fun token =>
      (if token.kind = .identifier && token.value = "concerto" then do
        let _ ← advance
        let word ← expect [.identifier]
        if word.value ≠ "version" then failAt word (.expectedVersion word.value)
        else
          let range ← expect [.string]
          return some range.value
      else return none) >>= f := bind_assoc ..
  rw [hassoc]
  refine .peek fun t t' _ hword => ?_
  obtain ⟨hkind, hvalue⟩ := eq_of_word_eq hword
  rw [hkind, hvalue]
  split
  · next hversion =>
      refine .bind (.advance (fun t₁ ht₁ heof => ?_) fun _ _ _ _ => ?_) fun v => (hf v).retraces
      · rw [ht₁] at heof
        simp [heof] at hversion
      · refine Advances.retraces (.expect (by simp) fun word word' _ hword => ?_)
        rw [(eq_of_word_eq hword).2]
        split
        · exact .failAt _ _
        · refine Advances.retraces (.expect (by simp) fun range range' _ hrange => ?_)
          rw [(eq_of_word_eq hrange).2]
          exact .pure _
  · rw [pure_bind]
    exact (hf none).imp fun _ _ => trivial

/-- A model is read again from its words. -/
lemma advances_model : Advances exactly first model model := by
  refine advances_version fun v => .expect (by simp) fun _ _ _ _ => ?_
  refine .bind retraces_qualifiedName fun ns => ?_
  refine .bind (.many (discerns_exactly _) advances_importStatement.toExactly) fun imports => ?_
  exact .bind (.many (discerns_exactly _) advances_declaration.toExactly) fun declarations => .pure _

end Parser

end Concerto
