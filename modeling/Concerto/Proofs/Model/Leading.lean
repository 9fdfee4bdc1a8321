import Concerto.Proofs.Model.Retracing
import Concerto.Proofs.Token.Leads

/-!
Where the tokens that begin a concept or a property lead to.

* `Opens`: what goes on after a marker and a name: the clauses of a concept, the modifiers of a property,
  or, after an `o`, the other values of an enumeration;
* `Parser.leads_model`: in a text that is read, a marker before a name leads there, whatever stands
  before them;
* `Parser.opens_of_model`: so there it goes on like that.

A marker may be a name, but what a name is followed by is no other name.
-/

namespace Concerto

namespace Parser

variable {α β : Type} {a b : Token} {goal : Parser α → Prop} {goal' : Parser β → Prop}

/-! ### Markers -/

/-- The kinds that begin a concept, a property or a value. -/
def IsMarker (kind : TokenKind) : Prop :=
  (∃ k, kind = .keyword (.conceptKw k)) ∨ kind = .keyword .propertyKw ∨ kind = .symbol .arrow

/-- A marker and a name. -/
structure Marks (a b : Token) : Prop where
  marker : IsMarker a.kind
  name : b.kind = .identifier

/-- The kind of a property, by its marker and its type. -/
def markedKind (marker : TokenKind) (type : String) : PropertyKind :=
  if marker = .symbol .arrow then .relationship ⟨type, none⟩ else kindOfType type

/-- What goes on after a marker and a name. A property is not followed by an equals sign. -/
inductive Opens (a b : Token) : Parser α → Prop
  | header {rest : Clauses → Parser α} (ha : ∃ k, a.kind = .keyword (.conceptKw k)) :
      Opens a b (clauses >>= fun c => symbol .openBrace >>= fun _ => rest c)
  | property {rest : Bool → String → Bool → PropertyKind → Parser α}
      (ha : a.kind = .keyword .propertyKw ∨ a.kind = .symbol .arrow)
      (hrest : ∀ isArray name isOptional kind (t : Token), t.kind = .symbol .equals →
        NeverAt (rest isArray name isOptional kind) t) :
      Opens a b (arrayMarker >>= fun isArray => anyName >>= fun name =>
        modifiers b.value (markedKind a.kind b.value) >>= fun m =>
          rest isArray name m.isOptional m.kind)
  | value {rest : List Header → Parser α} (ha : a.kind = .keyword .propertyKw) :
      Opens a b (many continuesBody enumValue >>= rest)

lemma Opens.bind {q : Parser α} {f : α → Parser β} (h : Opens a b q) : Opens a b (q >>= f) := by
  cases h with
  | header ha =>
      simp only [bind_assoc]
      exact .header ha
  | property ha hrest =>
      simp only [bind_assoc]
      exact .property ha fun isArray name isOptional kind t ht =>
        (hrest isArray name isOptional kind t ht).bind
  | value ha =>
      rw [bind_assoc]
      exact .value ha

/-! ### Names -/

lemma leads_typeName {f : String → Parser β} (ha : a.kind ≠ .identifier)
    (hf : ∀ name, Leads a b goal' (f name)) : Leads a b goal' (typeName >>= f) := by
  rw [typeName, bind_assoc]
  refine .expect (fun h => absurd (List.mem_singleton.mp h) ha) fun t _ => ?_
  split
  · exact .failAt_bind _ _
  · exact hf t.value

lemma passes_typeName (ha : a.kind ≠ .identifier) : Passes a b typeName := by
  have h : Passes a b (typeName >>= Pure.pure) := leads_typeName ha fun name => .pure name
  rwa [bind_pure] at h

lemma comes_typeName {f : String → Parser β} (hb : b.kind = .identifier)
    (hf : goal' (f b.value)) : Comes goal' [b] (typeName >>= f) := by
  rw [typeName, bind_assoc]
  refine Comes.congr ?_ (agreesAt_expect _ (by simp [hb]))
  -- a reserved word is refused, any other identifier is taken
  by_cases hreserved : reservedWords.contains b.value = true
  · refine .never fun rest stop r hr => ?_
    obtain ⟨name, s, hname, -⟩ := Yields.exists_of_bind (show ((if reservedWords.contains b.value
      then failAt b (.reservedName b.value) else Pure.pure b.value) >>= f) ⟨rest, stop⟩ = .ok r from hr)
    rw [if_pos hreserved] at hname
    exact failAt_ne_ok b _ _ _ hname
  · have hafter : (advance >>= fun t => (if reservedWords.contains t.value
        then failAt t (.reservedName t.value) else Pure.pure t.value) >>= f).after [b] = f b.value := by
      show (if reservedWords.contains b.value then failAt b (.reservedName b.value)
        else Pure.pure b.value) >>= f = _
      rw [if_neg hreserved]
      rfl
    exact .takes (.here (hafter.symm ▸ hf))

/-- At a token a name is taken, or none is read. -/
lemma takesOrNever_anyName (t : Token) :
    NeverAt anyName t ∨ anyName.after [t] = Pure.pure t.value := by
  -- the checks of a name take the token or fail at it
  have htake : ∀ isName : Bool,
      NeverAt (if !isName then Parser.failAt t (.expectedName t.value)
        else if reservedWords.contains t.value then Parser.failAt t (.reservedName t.value)
        else do
          let _ ← advance
          return t.value) t ∨
      (if !isName then Parser.failAt t (.expectedName t.value)
        else if reservedWords.contains t.value then Parser.failAt t (.reservedName t.value)
        else do
          let _ ← advance
          return t.value).after [t] = Pure.pure t.value := by
    intro isName
    split
    · exact .inl (.failAt t _)
    split
    · exact .inl (.failAt t _)
    · exact .inr rfl
  have hpeek : AgreesAt t anyName _ := agreesAt_peek _ t
  refine (htake _).imp (fun h => h.congr hpeek) fun h => ?_
  rw [← h]
  exact hpeek.after_eq

lemma passes_anyName : Passes a b anyName := by
  refine .of_token fun t tokens h => ?_
  rcases takesOrNever_anyName t with hnever | htakes
  · exact .never hnever
  · refine .takes ?_
    rw [htakes]
    rcases rest_cases h with ⟨-, rfl⟩ | htail
    · exact .done t.value fun _ _ => rfl
    · exact Leads.pure t.value tokens htail

/-! ### Items -/

/-- There are no decorators where none begins. -/
lemma agreesAt_decorators {f : Option (List Decorator) → Parser β} {t : Token}
    (h : t.kind ≠ .symbol .atSign) : AgreesAt t (decorators >>= f) (f none) := by
  have hdone : DoneAt decorators none t :=
    fun _ _ => bind_ok (many_of_not_continues (decide_eq_false h))
  exact hdone.agreesAt

/-- A property is not read where no decorator and no marker is next. -/
lemma neverAt_property {t : Token} (hat : t.kind ≠ .symbol .atSign)
    (hmarker : t.kind ∉ [.keyword .propertyKw, .symbol .arrow]) : NeverAt property t :=
  NeverAt.congr (.expect hmarker) (agreesAt_decorators hat)

/-- A value is not read where no decorator and no `o` is next. -/
lemma neverAt_enumValue {t : Token} (hat : t.kind ≠ .symbol .atSign)
    (hmarker : t.kind ≠ .keyword .propertyKw) : NeverAt enumValue t :=
  NeverAt.congr (.expect (by simpa using hmarker)) (agreesAt_decorators hat)

section Marked

variable (h : Marks a b)
include h

/-- A kind that is no marker is not that of the first token. -/
lemma Marks.ne {kind : TokenKind} (hkind : ¬IsMarker kind) : a.kind ≠ kind :=
  fun heq => hkind (heq ▸ h.marker)

lemma Marks.ne_symbol {s : Symbol} (hs : s ≠ .arrow) : a.kind ≠ .symbol s :=
  h.ne (by simp [IsMarker, hs])

lemma Marks.ne_keyword {k : Keyword} (hk : k ≠ .propertyKw) (hconcept : ∀ kind, k ≠ .conceptKw kind) :
    a.kind ≠ .keyword k :=
  h.ne (by simp [IsMarker, hk, hconcept])

lemma Marks.shuns_takeSymbol {s : Symbol} {f : Bool → Parser β} (hf : Shuns (f false) b) :
    Shuns (takeSymbol s >>= f) b :=
  hf.congr (agreesAt_takeSymbol f (by simp [h.name]))

lemma Marks.agreesAt_takeKeyword (k : Keyword) (f : Bool → Parser β) :
    AgreesAt b (takeKeyword k >>= f) (f false) :=
  Parser.agreesAt_takeKeyword f (by simp [h.name])

lemma Marks.neverAt_symbol {s : Symbol} {f : Unit → Parser β} : NeverAt (symbol s >>= f) b :=
  .symbol (by simp [h.name])

lemma passes_separated {separator : Symbol} {item : Parser α} (hs : separator ≠ .arrow)
    (hitem : Passes a b item) (hretraces : Retraces exactly item item) :
    Passes a b (separatedBy separator item) :=
  .separatedBy (h.ne_symbol hs) (by simp [h.name]) hitem hretraces

lemma passes_qualifiedName : Passes a b qualifiedName :=
  .bind_passes (passes_separated h (by simp) passes_anyName advances_anyName.retraces)
    fun _ => ⟨.pure _, .pure _⟩

/-! ### Version and imports -/

lemma passes_version : Passes a b version := by
  refine .peek fun t tokens htokens => ?_
  split
  · next ht =>
      have hidentifier : t.kind = .identifier := by simp_all
      refine Leads.comes_advance htokens (fun heq => ?_) (.expect (fun ha => ?_) fun word _ => ?_)
      · exact absurd (heq ▸ hidentifier) (h.ne (by simp [IsMarker]))
      · exact absurd (List.mem_singleton.mp ha) (h.ne (by simp [IsMarker]))
      split
      · exact .failAt _ _
      · refine .expect (fun ha => ?_) fun range _ => .pure _
        exact absurd (List.mem_singleton.mp ha) (h.ne (by simp [IsMarker]))
  · exact Leads.pure none _ htokens

lemma passes_importPart (path : ImportPath) : Passes a b (importPart path) := by
  refine .symbol (h.ne_symbol (by simp)) (.takeSymbol (h.ne_symbol (by simp)) (.pure _) ?_)
  refine .takeSymbol (h.ne_symbol (by simp)) ?_ ?_
  · have hnames : Passes a b (separatedBy .comma typeName) :=
      passes_separated h (by simp) (passes_typeName (h.ne (by simp [IsMarker])))
        advances_typeName.retraces
    refine .bind_passes hnames fun names => ⟨?_, .inr h.neverAt_symbol⟩
    exact .symbol (h.ne_symbol (by simp)) (.pure _)
  · exact .bind_passes passes_anyName fun _ => ⟨.pure _, .pure _⟩

/-- The location of an import. -/
lemma leads_location {f : Option String → Parser β}
    (hf : ∀ uri, Leads a b goal' (f uri) ∧ Shuns (f uri) b) :
    Leads a b goal'
      (do
        let uri ←
          if ← takeKeyword .fromKw then pure (some (← expect [.uri]).value)
          else pure none
        f uri) ∧
    Shuns
      (do
        let uri ←
          if ← takeKeyword .fromKw then pure (some (← expect [.uri]).value)
          else pure none
        f uri) b := by
  refine ⟨.takeKeyword (h.ne_keyword (by simp) (by simp)) ?_ (hf none).1,
    (hf none).2.congr (h.agreesAt_takeKeyword _ _)⟩
  refine .expect (fun ha => ?_) fun t _ => (hf _).1
  exact absurd (List.mem_singleton.mp ha) (h.ne (by simp [IsMarker]))

lemma passes_importStatement : Passes a b importStatement := by
  -- the path may end anywhere, and neither it nor the location begins with either token
  have hpath : ∀ path, Passes a b (foldWhile
      (fun path kind => path.names.isNone && kind = .symbol .dot) importPart path) :=
    .foldWhile (fun path => advances_importPart path) (fun _ => by simp [h.name])
      fun path t tokens _ htokens => passes_importPart h path _ htokens
  refine .expect (fun ha => ?_) fun keyword _ => ?_
  · exact absurd (List.mem_singleton.mp ha) (h.ne_keyword (by simp) (by simp))
  have hrest : ∀ {f : ImportPath → Parser (List Import)},
      (∀ path, Passes a b (f path) ∧ Shuns (f path) b) → ∀ path : ImportPath,
      Passes a b (foldWhile (fun path kind => path.names.isNone && kind = .symbol .dot)
        importPart path >>= f) ∧
      Shuns (foldWhile (fun path kind => path.names.isNone && kind = .symbol .dot)
        importPart path >>= f) b :=
    fun hf path => ⟨.bind_passes (hpath path) hf,
      .bind (.foldWhile (by simp [h.name])) fun path => (hf path).2⟩
  refine .bind_passes passes_anyName fun part => hrest ?_ _
  rintro ⟨parts, names⟩
  cases names with
  | none =>
      dsimp only
      split
      · exact ⟨.failAt_bind _ _, .inr (.failAt_bind _ _)⟩
      · refine leads_location h fun uri => ?_
        cases parts.getLast? with
        | none => exact ⟨.pure _, .pure _⟩
        | some name => exact ⟨.pure _, .pure _⟩
  | some names =>
      refine leads_location h fun uri => ?_
      cases names with
      | none => exact ⟨.pure _, .pure _⟩
      | some names => exact ⟨.pure _, .pure _⟩

/-! ### Decorators -/

/-- Brackets are followed by what follows the marker if there are none. -/
lemma leads_arrayMarker {f : Bool → Parser β} (hf : ∀ isArray, Leads a b goal' (f isArray)) :
    Leads a b goal' (arrayMarker >>= f) := by
  rw [arrayMarker, bind_assoc]
  refine .takeSymbol (h.ne_symbol (by simp)) ?_ (hf false)
  rw [if_pos rfl, bind_assoc]
  exact .symbol (h.ne_symbol (by simp)) (hf true)

lemma passes_decoratorArgument : Passes a b decoratorArgument := by
  refine .peek fun t tokens htokens => ?_
  have htakes : ∀ {p : Parser DecoratorArgument}, ¬IsMarker t.kind → Passes a b p →
      Comes (fun _ => False) (t :: tokens) (advance >>= fun _ => p) :=
    fun ht hp => Leads.comes_advance htokens (fun heq => absurd h.marker (heq ▸ ht)) hp
  split
  · next ht => exact htakes (by simp [IsMarker, ht]) (.pure _)
  · next ht => exact htakes (by simp [IsMarker, ht]) (.numberValue_bind fun _ => .pure _)
  · next ht => exact htakes (by simp [IsMarker, ht]) (.numberValue_bind fun _ => .pure _)
  · next ht => exact htakes (by simp [IsMarker, ht]) (.pure _)
  · next ht => exact htakes (by simp [IsMarker, ht]) (.pure _)
  · refine leads_typeName (h.ne (by simp [IsMarker])) (fun name => ?_) _ htokens
    exact leads_arrayMarker h fun _ => .pure _
  · exact .never (.failAt _ _)

lemma passes_decoratorArguments : Passes a b decoratorArguments := by
  refine .nextIs (fun t tokens _ htokens => Leads.pure [] _ htokens) ?_
  exact passes_separated h (by simp) (passes_decoratorArgument h)
    advances_decoratorArgument.retraces

lemma passes_decorator : Passes a b decorator := by
  refine .symbol (h.ne_symbol (by simp)) (.bind_passes passes_anyName fun name => ?_)
  refine ⟨.takeSymbol (h.ne_symbol (by simp)) ?_ (.pure _), h.shuns_takeSymbol (.pure _)⟩
  refine .bind_passes (passes_decoratorArguments h) fun arguments => ⟨?_, .inr h.neverAt_symbol⟩
  exact .symbol (h.ne_symbol (by simp)) (.pure _)

lemma passes_decorators : Passes a b decorators := by
  refine .bind_passes (.many_passes advances_decorator (passes_decorator h) fun _ =>
    h.neverAt_symbol) fun list => ?_
  split
  · exact ⟨.pure _, .pure _⟩
  · exact ⟨.pure _, .pure _⟩

lemma shuns_decorators : Shuns decorators b := by
  refine .bind (.many advances_decorator fun _ => h.neverAt_symbol) fun list => ?_
  split
  · exact .pure _
  · exact .pure _

/-! ### Properties -/

/-- A token of one of some kinds, none of which is a marker. -/
lemma passes_expect {kinds : List TokenKind} {f : Token → Parser β}
    (hkinds : ∀ kind ∈ kinds, ¬IsMarker kind) (hf : ∀ t, Leads a b goal' (f t)) :
    Leads a b goal' (expect kinds >>= f) :=
  .expect (fun ha => absurd h.marker (hkinds _ ha)) fun t _ => hf t

lemma passes_integerLiteral : Passes a b integerLiteral :=
  passes_expect h (by simp [IsMarker]) fun t => .numberValue (readInteger t.value)

lemma passes_doubleLiteral : Passes a b doubleLiteral :=
  passes_expect h (by simp [IsMarker]) fun t => .numberValue (readDouble t.value)

lemma passes_booleanLiteral : Passes a b booleanLiteral :=
  passes_expect h (by simp [IsMarker]) fun _ => .pure _

omit h in
/-- An end of a range, which is left out if the symbol after it is next. -/
lemma passes_rangeEnd {bound : Parser α} {stop : Symbol} {f : Option α → Parser β}
    (hbound : Passes a b bound) (hf : ∀ v, Passes a b (f v) ∧ Shuns (f v) b) :
    Passes a b
      (do
        let v ← if ← nextIs (.symbol stop) then pure none else some <$> bound
        f v) :=
  .nextIs (fun _ _ _ htokens => (hf none).1 _ htokens) (.bind_passes (.map_passes hbound) hf)

lemma passes_range {bound : Parser α} (hbound : Passes a b bound) : Passes a b (range bound) := by
  refine .symbol (h.ne_symbol (by simp)) (passes_rangeEnd hbound fun lower => ?_)
  refine ⟨.symbol (h.ne_symbol (by simp)) ?_, .inr h.neverAt_symbol⟩
  refine passes_rangeEnd hbound fun upper => ?_
  exact ⟨.symbol (h.ne_symbol (by simp)) (.pure _), .inr h.neverAt_symbol⟩

/-- The value of a modifier. -/
lemma passes_modifierValue {keyword : Keyword} {kind : PropertyKind} {value : Parser PropertyKind}
    (hvalue : modifierValue? keyword kind = some value) : Passes a b value := by
  have hthen : ∀ {γ : Type} {p : Parser γ} {f : γ → PropertyKind}, Passes a b p →
      Passes a b (p >>= fun v => pure (f v)) :=
    fun hp => .bind_passes hp fun v => ⟨.pure _, .pure _⟩
  cases isModifierValue_of_modifierValue? hvalue with
  | token hkind f =>
      rcases hkind with rfl | rfl <;> exact passes_expect h (by simp [IsMarker]) fun t => .pure _
  | boolean => exact hthen (passes_booleanLiteral h)
  | double => exact hthen (passes_doubleLiteral h)
  | integer => exact hthen (passes_integerLiteral h)
  | doubles => exact hthen (passes_range h (passes_doubleLiteral h))
  | integers => exact hthen (passes_range h (passes_integerLiteral h))

lemma passes_modifiers (type : String) (kind : PropertyKind) : Passes a b (modifiers type kind) := by
  refine .foldWhile (advances_modifier type) (fun m => ?_) (fun m t tokens ht htokens => ?_) _
  -- neither token begins a modifier, and no modifier is asked about the token after it
  · simp [h.name, modifierOf?]
  refine Leads.comes_advance htokens (fun heq => ?_) ?_
  · rw [heq] at ht
    rcases h.marker with ⟨k, ha⟩ | ha | ha <;> simp [ha, modifierOf?] at ht
  split
  · exact .pure _
  split
  · exact .failAt _ _
  split
  · exact .pure _
  dsimp only
  split
  · exact .failAt _ _
  · next value hvalue =>
      refine .symbol (h.ne_symbol (by simp)) ?_
      exact .bind_passes (passes_modifierValue h hvalue) fun _ => ⟨.pure _, .pure _⟩

lemma shuns_modifiers (type : String) (kind : PropertyKind) : Shuns (modifiers type kind) b :=
  .foldWhile (by simp [h.name, modifierOf?])

/-- A property goes on after its marker and a name with its modifiers. -/
def propertyRest (decorators : Option (List Decorator)) (marker : TokenKind) (type : String) :
    Parser Property := do
  let isArray ← arrayMarker
  let name ← anyName
  let m ← modifiers type (markedKind marker type)
  return ⟨⟨name, decorators, none⟩, isArray, m.isOptional, m.kind⟩

lemma leads_property : Leads a b
    (fun q => (a.kind = .keyword .propertyKw ∨ a.kind = .symbol .arrow) ∧
      ∃ decorators, q = propertyRest decorators a.kind b.value) property := by
  refine .bind_passes (passes_decorators h) fun decorators => ⟨.expect (fun ha => ?_) fun t _ => ?_, ?_⟩
  · exact comes_typeName h.name ⟨by simpa using ha, decorators, rfl⟩
  · refine leads_typeName (h.ne (by simp [IsMarker])) fun type => ?_
    refine leads_arrayMarker h fun isArray => .bind_passes passes_anyName fun name => ?_
    exact ⟨.bind_passes (passes_modifiers h type _) fun _ => ⟨.pure _, .pure _⟩,
      (shuns_modifiers h type _).bind fun _ => .pure _⟩
  · exact .inr (.expect (by simp [h.name]))

/-! ### Declarations -/

/-- A list in braces leads where its items do. -/
lemma leads_body {item : Parser α}
    (hadvances : Advances exactly (fun t => continuesBody t.kind = true) item item)
    (hitem : Leads a b goal item) (hshuns : NeverAt item b)
    (hopens : ∀ q, goal q →
      Opens a b (q >>= fun v => many continuesBody item >>= fun vs => pure (v :: vs))) :
    Leads a b (Opens a b) (body item) := by
  refine .symbol (h.ne_symbol (by simp)) ?_
  refine .bind (.many hadvances hitem hopens (fun _ _ => .bind) fun _ => hshuns)
    (fun _ => .bind) fun items => ⟨?_, .inr h.neverAt_symbol⟩
  exact .symbol (h.ne_symbol (by simp)) (.pure _)

lemma leads_properties : Leads a b (Opens a b) (body property) := by
  refine leads_body h advances_property (leads_property h) ?_ ?_
  · exact neverAt_property (by simp [h.name]) (by simp [h.name])
  · rintro q ⟨ha, decorators, rfl⟩
    simp only [propertyRest, bind_assoc, pure_bind]
    refine @Opens.property _ a b (fun isArray name isOptional kind =>
      many continuesBody property >>= fun properties =>
        pure (⟨⟨name, decorators, none⟩, isArray, isOptional, kind⟩ :: properties))
      ha fun _ _ _ _ t ht => ?_
    refine (NeverAt.many advances_property ?_ (neverAt_property ?_ ?_)).bind
    all_goals simp [ht, continuesBody]

lemma leads_values : Leads a b (Opens a b) (body enumValue) := by
  have hvalue : Leads a b (fun q => a.kind = .keyword .propertyKw ∧ ∃ value, q = pure value)
      enumValue := by
    refine .bind_passes (passes_decorators h) fun decorators =>
      ⟨.expect (fun ha => ?_) fun t _ => ?_, ?_⟩
    -- the value may be named by the second token
    · rcases takesOrNever_anyName b with hnever | htakes
      · exact .never hnever.bind
      · refine .takes (.here ⟨List.mem_singleton.mp ha, ⟨b.value, decorators, none⟩, ?_⟩)
        show anyName.after [b] >>= (fun name => (pure ⟨name, decorators, none⟩ : Parser Header)) = _
        rw [htakes]
        rfl
    · exact .bind_passes passes_anyName fun _ => ⟨.pure _, .pure _⟩
    · exact .inr (.expect (by simp [h.name]))
  have hshuns : NeverAt enumValue b :=
    (shuns_decorators h).neverAt_bind fun _ => .expect (by simp [h.name])
  refine leads_body h advances_enumValue hvalue hshuns ?_
  rintro q ⟨ha, value, rfl⟩
  show Opens a b (many continuesBody enumValue >>= fun values => pure (value :: values))
  exact .value ha

lemma leads_enumeration (decorators : Option (List Decorator)) :
    Leads a b (Opens a b) (enumeration decorators) := by
  refine passes_expect h (by simp [IsMarker]) fun _ => ?_
  refine leads_typeName (h.ne (by simp [IsMarker])) fun name => ?_
  exact .bind (leads_values h) (fun _ => .bind) fun _ => ⟨.pure _, .pure _⟩

lemma passes_clauses : Passes a b clauses := by
  refine .foldWhile advances_clause (fun c => ?_) (fun c t tokens ht htokens => ?_) _
  · simp [h.name]
  refine Leads.comes_advance htokens (fun heq => ?_) ?_
  · rw [heq] at ht
    rcases h.marker with ⟨k, ha⟩ | ha | ha <;> simp [ha] at ht
  split
  · split
    · exact .failAt _ _
    · exact leads_typeName (h.ne (by simp [IsMarker])) fun _ => .pure _
  split
  · exact .failAt _ _
  refine .takeKeyword (h.ne_keyword (by simp) (by simp)) ?_ (.pure _)
  exact .bind_passes passes_anyName fun _ => ⟨.pure _, .pure _⟩

/-- A concept, whose keyword is next. -/
lemma comes_concept {t : Token} {tokens : List Token} {kind : ConceptKind}
    (ht : t.kind = .keyword (.conceptKw kind)) (htokens : [a, b] <:+ t :: tokens)
    (decorators : Option (List Decorator)) (isAbstract : Bool) :
    Comes (Opens a b) (t :: tokens) (concept kind decorators isAbstract) := by
  refine Leads.comes_advance htokens (fun heq => comes_typeName h.name ?_) ?_
  · simp only [body, bind_assoc]
    exact .header ⟨kind, heq ▸ ht⟩
  · refine leads_typeName (h.ne (by simp [IsMarker])) fun name => ?_
    refine .bind_passes (passes_clauses h) fun c => ⟨?_, .inr h.neverAt_symbol.bind⟩
    exact .bind (leads_properties h) (fun _ => .bind) fun _ => ⟨.pure _, .pure _⟩

omit h in
/-- After its decorators, the next token tells what a declaration is, or it is not read. -/
lemma exists_declaration_eq : ∃ f : Option (List Decorator) → Bool → Token → Parser Declaration,
    declaration = (decorators >>= fun decorators => takeKeyword .abstractKw >>= fun isAbstract =>
      peek >>= f decorators isAbstract) ∧
    ∀ decorators isAbstract t,
      (t.kind = .keyword .enumKw ∧ f decorators isAbstract t =
        enumeration decorators >>= fun e => Pure.pure (Declaration.enumeration e)) ∨
      (∃ kind, t.kind = .keyword (.conceptKw kind) ∧ f decorators isAbstract t =
        concept kind decorators isAbstract >>= fun c => Pure.pure (Declaration.concept c)) ∨
      ∃ fault, f decorators isAbstract t = failAt t fault := by
  refine ⟨_, rfl, fun decorators isAbstract t => ?_⟩
  split
  · next ht =>
      split
      · exact .inr (.inr ⟨_, rfl⟩)
      · exact .inl ⟨ht, rfl⟩
  · next kind ht => exact .inr (.inl ⟨kind, ht, rfl⟩)
  · exact .inr (.inr ⟨_, rfl⟩)

lemma leads_declaration : Leads a b (Opens a b) declaration ∧ NeverAt declaration b := by
  obtain ⟨f, heq, hf⟩ := exists_declaration_eq
  rw [heq]
  -- the token after the decorators and `abstract` decides, or the declaration is refused
  have hkind : ∀ decorators isAbstract, Leads a b (Opens a b) (peek >>= f decorators isAbstract) := by
    refine fun decorators isAbstract => .peek fun t tokens htokens => ?_
    rcases hf decorators isAbstract t with ⟨-, ht⟩ | ⟨kind, hkind, ht⟩ | ⟨fault, ht⟩
    · rw [ht]
      refine Leads.bind (leads_enumeration h decorators) (fun _ => .bind) (fun _ => ?_) _ htokens
      exact ⟨.pure _, .pure _⟩
    · rw [ht]
      refine (comes_concept h hkind htokens decorators isAbstract).bind (fun _ => .bind) ?_
      exact fun _ _ _ _ => .done _ fun _ _ => rfl
    · rw [ht]
      exact .never (.failAt _ _)
  have hrest : ∀ decorators, NeverAt (takeKeyword .abstractKw >>= fun isAbstract =>
      peek >>= f decorators isAbstract) b := by
    refine fun decorators => NeverAt.congr ?_ (h.agreesAt_takeKeyword _ _)
    refine NeverAt.congr ?_ (agreesAt_peek _ b)
    rcases hf decorators false b with ⟨hb, -⟩ | ⟨kind, hb, -⟩ | ⟨fault, ht⟩
    · simp [h.name] at hb
    · simp [h.name] at hb
    · rw [ht]
      exact .failAt _ _
  refine ⟨.bind_passes (passes_decorators h) fun decorators => ⟨?_, .inr (hrest decorators)⟩,
    (shuns_decorators h).neverAt_bind hrest⟩
  exact .takeKeyword (h.ne_keyword (by simp) (by simp)) (hkind _ _) (hkind _ _)

lemma leads_model : Leads a b (Opens a b) model := by
  obtain ⟨hdeclaration, hnever⟩ := leads_declaration h
  -- the declarations after one that is opened belong to what goes on after it
  have hdeclarations : ∀ {f : List Declaration → Parser Model}, (∀ v, Leads a b (Opens a b) (f v)) →
      (∀ v, Shuns (f v) b) → Leads a b (Opens a b) (many (· ≠ .eof) declaration >>= f) ∧
        Shuns (many (· ≠ .eof) declaration >>= f) b := by
    refine fun hf hshuns => ⟨.bind (.many advances_declaration hdeclaration (fun _ => .bind)
      (fun _ _ => .bind) fun _ => hnever) (fun _ => .bind) fun v => ⟨hf v, hshuns v⟩, ?_⟩
    exact .bind (.many advances_declaration fun _ => hnever) hshuns
  refine .bind_passes (passes_version h) fun version => ⟨?_, .inr (.expect (by simp [h.name]))⟩
  refine passes_expect h (by simp [IsMarker]) fun _ => ?_
  refine .bind_passes (passes_qualifiedName h) fun ns => ?_
  have himports : Passes a b (many (· = .keyword .importKw) importStatement) :=
    .many_passes advances_importStatement (passes_importStatement h) fun hb => by simp [h.name] at hb
  refine ⟨.bind_passes himports fun imports => hdeclarations (fun _ => .pure _) fun _ => .pure _, ?_⟩
  refine .bind (.many advances_importStatement fun hb => by simp [h.name] at hb) fun imports => ?_
  exact (hdeclarations (fun _ => .pure _) fun _ => .pure _).2

end Marked

/-! ### Texts that are read -/

/-- A model is read up to the end of a text. -/
lemma eof_of_model {s s' : TokenStream} {m : Model} (h : model s = .ok (m, s')) :
    nextKind s'.words = .eof := by
  obtain ⟨version, s₁, -, h⟩ := Yields.exists_of_bind h
  obtain ⟨token, s₂, -, h⟩ := Yields.exists_of_bind h
  obtain ⟨ns, s₃, -, h⟩ := Yields.exists_of_bind h
  obtain ⟨imports, s₄, -, h⟩ := Yields.exists_of_bind h
  obtain ⟨declarations, s₅, hdeclarations, h⟩ := Yields.exists_of_bind h
  cases h
  obtain ⟨-, -, hstop, -⟩ :=
    Repeats.of_many (v := .eof) (fun _ _ => rfl) advances_declaration hdeclarations rfl
  simpa using hstop

/-- In a text that is read, a marker and a name have led to what goes on after them. -/
lemma opens_of_model (h : Marks a b) {before rest : List Token} {stop : Place} {r : Model × TokenStream}
    (heof : ∀ t ∈ before ++ [a, b], t.kind ≠ .eof)
    (hr : model ⟨before ++ [a, b] ++ rest, stop⟩ = .ok r) :
    Opens a b (model.after (before ++ [a, b])) := by
  refine (leads_model h _ (List.suffix_append before [a, b])).goal_of_ok ?_ hr
  intro before' t after' heq m hdone
  have hend := eof_of_model (hdone [] stop)
  exact heof t (by simp [heq]) hend

end Parser

end Concerto
