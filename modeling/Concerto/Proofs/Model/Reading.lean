import Concerto.Proofs.Model.Words
import Concerto.Proofs.Token.Reads

/-!
Reading a model back from its words: `Parser.reads_model`, `Model.parse_of_reads`.

For each node there is a lemma that its parser reads the words of the node, before a word of a kind
that goes on after it, and makes of them the node as source text can tell it.
-/

namespace Concerto

namespace Parser

variable {F : TokenKind → Prop}

/-! ### Names -/

/-- A name is no symbol. -/
lemma name_kind_ne_symbol (w : String) (s : Symbol) : (Word.name w).kind ≠ .symbol s := by
  unfold Word.name
  split <;> simp

/-- A name is not reserved. -/
lemma not_reserved {w : String} (h : isIdentifier w = true) : reservedWords.contains w = false := by
  simp only [isIdentifier, Bool.and_eq_true, Bool.not_eq_true'] at h
  exact h.1

/-- The token of a type name. -/
lemma kind_of_isTypeName {w : String} (h : IsTypeName w) : Word.name w = ⟨.identifier, w⟩ :=
  Word.name_of_none h.2

lemma reads_typeName {w : String} (h : IsTypeName w) : Reads typeName [.name w] (· = w) F := by
  refine .bind_nil (.expect (by simp [kind_of_isTypeName h])) fun t ht => ?_
  have hvalue : t.value = w := by rw [← Token.word_value, ht, Word.name_value]
  rw [hvalue, not_reserved h.1]
  exact .pure rfl

/-- Of the keywords, only the reserved ones cannot be names. -/
lemma canBeName_of_ofText? {w : String} {k : Keyword} (hk : Keyword.ofText? w = some k)
    (h : isIdentifier w = true) : k.canBeName = true := by
  have htext := Keyword.text_of_ofText? hk
  have hreserved := not_reserved h
  cases k with
  | trueKw | falseKw =>
      rw [← htext] at hreserved
      exact absurd hreserved (by decide)
  | _ => rfl

lemma reads_anyName {w : String} (h : isIdentifier w = true) :
    Reads anyName [.name w] (· = w) F := by
  refine .peek fun t ht => ?_
  have hvalue : t.value = w := by rw [← Token.word_value, ht, Word.name_value]
  have htake : Reads (do
      let _ ← advance
      return w) [.name w] (· = w) F :=
    .bind_nil .advance fun _ _ => .pure rfl
  -- the token is an identifier, or a keyword that may also be a name
  cases hk : Keyword.ofText? w with
  | none =>
      have hkind : t.kind = .identifier := by rw [← Token.word_kind, ht, Word.name_of_none hk]
      simp only [hkind, hvalue, not_reserved h, Bool.not_true, Bool.false_eq_true, if_false]
      exact htake
  | some k =>
      have hkind : t.kind = .keyword k := by rw [← Token.word_kind, ht, Word.name, hk]
      simp only [hkind, hvalue, not_reserved h, canBeName_of_ofText? hk h, Bool.not_true,
        Bool.false_eq_true, if_false]
      exact htake

/-- The parts of a name. -/
lemma nameParts_ne_nil (name : String) : nameParts name ≠ [] := by
  simp [nameParts]

lemma reads_qualifiedName {name : String} (h : IsQualifiedName name)
    (hdot : ∀ k, F k → k ≠ .symbol .dot) : Reads qualifiedName (qualifiedWords name) (· = name) F := by
  obtain ⟨part, parts, hparts⟩ := List.exists_cons_of_ne_nil (nameParts_ne_nil name)
  have hread : Reads (separatedBy .dot anyName) (qualifiedWords name) (· = nameParts name) F := by
    have hlist : Reads (separatedBy .dot anyName) _ _ F :=
      Reads.separatedBy (F := Anything) part parts (fun p => [Word.name p]) id
        (fun p hp => reads_anyName (h p (by rw [hparts]; exact hp))) trivial
        fun k hk => ⟨hdot k hk, trivial⟩
    simpa [qualifiedWords, separatedWords, hparts, List.flatMap_map] using hlist
  refine .map (Q := (· = name)) hread fun ps hps => ?_
  rw [hps, joinName_nameParts]

/-! ### Version and imports -/

lemma reads_version (version : Option String) (hF : ∀ k, F k → k ≠ .identifier) :
    Reads Parser.version (Model.versionWords version) (· = version) F := by
  cases version with
  | none =>
      refine .peek_nil fun t ht => ?_
      rw [if_neg (by simp [hF _ ht])]
      exact .pure rfl
  | some v =>
      refine .peek fun t ht => ?_
      -- neither of the words is a keyword, so their tokens are identifiers
      have hconcerto : Word.name "concerto" = ⟨.identifier, "concerto"⟩ := rfl
      have hversion : Word.name "version" = ⟨.identifier, "version"⟩ := rfl
      have hword : t.kind = .identifier ∧ t.value = "concerto" := by
        rw [← Token.word_kind, ← Token.word_value, ht]
        exact ⟨rfl, rfl⟩
      rw [if_pos (by simp [hword])]
      refine .bind_cons .advance fun _ _ => .bind_cons (.expect (by simp [hversion])) fun word hw => ?_
      have hvalue : word.value = "version" := by rw [← Token.word_value, hw, Word.name_value]
      rw [if_neg (by simp [hvalue])]
      refine .bind_nil (.expect (by simp)) fun range hrange => .pure ?_
      rw [← Token.word_value, hrange]
      rfl

/-- One more part of the name that an import begins with. -/
lemma reads_importPart_name (parts : List String) {part : String} (h : isIdentifier part = true) :
    Reads (importPart ⟨parts, none⟩) [.symbol .dot, .name part] (· = ⟨parts ++ [part], none⟩) F := by
  have hsymbol := name_kind_ne_symbol part
  refine .bind_cons (.symbol .dot) fun _ _ => ?_
  refine .takeSymbol_skip (hsymbol .star) ?_
  refine .takeSymbol_skip (hsymbol .openBrace) ?_
  refine .bind_nil (reads_anyName h) fun name hname => .pure ?_
  rw [hname]

/-- The star of an import. -/
lemma reads_importPart_star (parts : List String) :
    Reads (importPart ⟨parts, none⟩) [.symbol .dot, .symbol .star] (· = ⟨parts, some none⟩) F :=
  .bind_cons (.symbol .dot) fun _ _ => .takeSymbol_cons (.pure rfl)

/-- Whether one more part of the name of an import follows. -/
def continuesPath (path : ImportPath) (kind : TokenKind) : Bool :=
  path.names.isNone && kind = .symbol .dot

/-- The parts of the name that an import begins with, and what is after them. -/
lemma reads_importPath (read : List String) {parts : List String} (h : ∀ part ∈ parts, isIdentifier part = true)
    {words : List Word} {R : ImportPath → Prop}
    (hrest : Reads (foldWhile continuesPath importPart ⟨read ++ parts, none⟩) words R F) :
    Reads (foldWhile continuesPath importPart ⟨read, none⟩)
      ((parts.flatMap fun part => [.symbol .dot, .name part]) ++ words) R F := by
  induction parts generalizing read with
  | nil => simpa using hrest
  | cons part parts ih =>
      have hloop := ih (read ++ [part]) (fun p hp => h p (by simp [hp])) (by simpa using hrest)
      have hpart := reads_importPart_name (F := Anything) read (h part (by simp))
      rw [List.flatMap_cons, List.append_assoc]
      exact Reads.foldWhile_cons rfl hpart hloop fun _ _ => trivial

/-- The location of an import. -/
lemma reads_location (uri : Option String) (hF : ∀ k, F k → k ≠ .keyword .fromKw)
    {β : Type} {f : Option String → Parser β} {Q : β → Prop} (hf : Reads (f uri) [] Q F) :
    Reads (do
      let uri ←
        if ← takeKeyword .fromKw then pure (some (← expect [.uri]).value)
        else pure none
      f uri) (Import.locationWords uri) Q F := by
  cases uri with
  | none => exact .takeKeyword_end hF hf
  | some u =>
      refine .takeKeyword_cons ?_
      refine .bind_nil (.expect (by simp)) fun t ht => ?_
      have hvalue : t.value = u := by rw [← Token.word_value, ht]; rfl
      rw [hvalue]
      exact hf

/-- What may follow an import: no more parts of its name, and no location. -/
def AfterImport (k : TokenKind) : Prop := k ≠ .symbol .dot ∧ k ≠ .keyword .fromKw

/-- The part of an import before its location. -/
lemma reads_importHead {ns : String} (hns : IsQualifiedName ns) {last : List Word}
    {close : List String → ImportPath} {G : TokenKind → Prop}
    (hlast : ∀ parts, Reads (importPart ⟨parts, none⟩) (.symbol .dot :: last) (· = close parts) Anything)
    (hclose : ∀ parts k, G k → continuesPath (close parts) k = false)
    {β : Type} {f : Token → ImportPath → Parser β} {words : List Word} {Q : β → Prop}
    (hf : ∀ keyword, Reads (f keyword (close (nameParts ns))) words Q F)
    (hnext : ∀ rest, F (nextKind rest) → G (nextKind (words ++ rest))) :
    Reads (do
      let keyword ← expect [.keyword .importKw]
      let first ← anyName
      let path ← foldWhile continuesPath importPart ⟨[first], none⟩
      f keyword path)
      (.keyword .importKw :: qualifiedWords ns ++ .symbol .dot :: last ++ words) Q F := by
  obtain ⟨part, parts, hparts⟩ := List.exists_cons_of_ne_nil (nameParts_ne_nil ns)
  rw [IsQualifiedName, hparts] at hns
  rw [hparts] at hf
  -- the first part is read by itself, the others by the loop, which stops after the last word of
  -- the path
  have hpath : Reads (foldWhile continuesPath importPart ⟨[part], none⟩)
      ((parts.flatMap fun part => [.symbol .dot, .name part]) ++ .symbol .dot :: last)
      (· = close (part :: parts)) G := by
    have hstop : Reads (foldWhile continuesPath importPart (close (part :: parts))) []
        (· = close (part :: parts)) G := .foldWhile_nil (hclose _)
    have hloop : Reads (foldWhile continuesPath importPart ⟨part :: parts, none⟩) _ _ G :=
      .foldWhile_cons rfl (hlast _) hstop fun _ _ => trivial
    rw [List.append_nil] at hloop
    exact reads_importPath [part] (fun p hp => hns p (by simp [hp])) hloop
  have hwords : .keyword .importKw :: qualifiedWords ns ++ .symbol .dot :: last ++ words =
      .keyword .importKw :: .name part ::
        (((parts.flatMap fun part => [.symbol .dot, .name part]) ++ .symbol .dot :: last) ++ words) := by
    simp [qualifiedWords, separatedWords, hparts, List.flatMap_map]
  rw [hwords]
  refine .bind_cons (.expect (by simp)) fun keyword _ => ?_
  refine .bind_cons (reads_anyName (hns part (by simp))) fun first hfirst => ?_
  subst hfirst
  refine .bind hpath (fun path hpath => ?_) hnext
  subst hpath
  exact hf keyword

lemma reads_importStatement {i : Import} (h : i.IsSpellable) :
    Reads importStatement i.words (· = [i]) AfterImport := by
  have hfrom : ∀ k, AfterImport k → k ≠ .keyword .fromKw := fun k hk => hk.2
  cases i with
  | all ns uri =>
      refine reads_importHead (G := Anything) h.1 reads_importPart_star (fun _ _ _ => rfl)
        (fun keyword => ?_) fun _ _ => trivial
      refine reads_location uri hfrom (f := fun uri =>
        Pure.pure [Import.all (joinName (nameParts ns)) uri]) (.pure ?_)
      rw [joinName_nameParts]
  | type ns name uri =>
      refine reads_importHead (G := (· ≠ .symbol .dot)) h.1
        (fun parts => reads_importPart_name parts h.2.1)
        (fun parts k hk => by simpa [continuesPath] using hk) (fun keyword => ?_) fun rest hrest => ?_
      -- the last part of the path is the type, and at least one part is left for the namespace
      · have hlength : ¬ (nameParts ns ++ [name]).length < 2 := by
          have hpos := List.length_pos_iff.mpr (nameParts_ne_nil ns)
          simp only [List.length_append, List.length_singleton]
          omega
        simp only [if_neg hlength, List.dropLast_concat, List.getLast?_concat]
        refine reads_location uri hfrom (f := fun uri =>
          Pure.pure [Import.type (joinName (nameParts ns)) name uri]) (.pure ?_)
        rw [joinName_nameParts]
      · cases uri with
        | none => exact hrest.1
        | some u => simp [Import.locationWords]

/-! ### Decorators -/

lemma reads_arrayMarker (isArray : Bool) (hF : ∀ k, F k → k ≠ .symbol .openBracket) :
    Reads arrayMarker (arrayWords isArray) (· = isArray) F := by
  cases isArray with
  | false => exact .takeSymbol_end hF (.pure rfl)
  | true => exact .takeSymbol_cons (.bind_nil (.symbol .closeBracket) fun _ _ => .pure rfl)

/-- A number that is read as a double. -/
lemma readDouble_of_isPlain {d : Double} (h : (Numeral.double d).IsPlain) :
    (Numeral.double d).word = ⟨.float, d.text⟩ ∧ readDouble d.text = .ok d := by
  have hfinite : d.isFinite = true := h
  exact ⟨by simp [Numeral.word, Numeral.kind, Numeral.text, hfinite], Double.readDouble_text hfinite⟩

lemma reads_decoratorArgument {a : DecoratorArgument} (h : a.IsSpellable)
    (hplain : ∀ n ∈ a.numerals, n.IsPlain) (hF : ∀ k, F k → k ≠ .symbol .openBracket) :
    Reads decoratorArgument a.words (· = a.sourceForm) F := by
  -- the kind of the first token decides how the argument is read
  cases a with
  | string value location =>
      refine .peek fun t ht => ?_
      obtain ⟨hkind, hvalue⟩ : t.kind = .string ∧ t.value = value := by
        rw [← Token.word_kind, ← Token.word_value, ht]
        exact ⟨rfl, rfl⟩
      simp only [hkind, hvalue]
      exact .bind_nil .advance fun _ _ => .pure rfl
  | number value location =>
      obtain ⟨hword, hread⟩ := readDouble_of_isPlain (d := value)
        (hplain _ (by simp [DecoratorArgument.numerals]))
      refine .peek fun t ht => ?_
      obtain ⟨hkind, hvalue⟩ : t.kind = .float ∧ t.value = value.text := by
        rw [← Token.word_kind, ← Token.word_value, ht, hword]
        exact ⟨rfl, rfl⟩
      simp only [hkind, hvalue]
      refine .bind_cons .advance fun _ _ => .bind_nil (.numberValue hread) fun d hd => .pure ?_
      rw [hd]
      rfl
  | boolean value location =>
      refine .peek fun t ht => ?_
      cases value with
      | false =>
          have hkind : t.kind = .keyword .falseKw := by rw [← Token.word_kind, ht]; rfl
          simp only [hkind]
          exact .bind_nil .advance fun _ _ => .pure rfl
      | true =>
          have hkind : t.kind = .keyword .trueKw := by rw [← Token.word_kind, ht]; rfl
          simp only [hkind]
          exact .bind_nil .advance fun _ _ => .pure rfl
  | type ref isArray location =>
      refine .peek fun t ht => ?_
      have hkind : t.kind = .identifier := by rw [← Token.word_kind, ht, kind_of_isTypeName h]
      simp only [hkind]
      refine .bind_cons (reads_typeName h) fun name hname => ?_
      refine .bind_nil (reads_arrayMarker isArray hF) fun b hb => .pure ?_
      rw [hname, hb]
      rfl

/-- What may follow an argument. -/
def AfterArgument (k : TokenKind) : Prop := k = .symbol .comma ∨ k = .symbol .closeParen

/-- The first word of an argument ends no list of arguments. -/
lemma exists_argument_word (a : DecoratorArgument) :
    ∃ w ws, a.words = w :: ws ∧ w.kind ≠ .symbol .closeParen := by
  cases a with
  | string value location => exact ⟨_, _, rfl, by simp⟩
  | number value location =>
      refine ⟨_, _, rfl, ?_⟩
      simp only [Numeral.word, Numeral.kind]
      split <;> simp
  | boolean value location => exact ⟨_, _, rfl, by simp⟩
  | type ref isArray location => exact ⟨_, _, rfl, name_kind_ne_symbol _ _⟩

lemma reads_decoratorArguments {arguments : List DecoratorArgument}
    (h : ∀ a ∈ arguments, a.IsSpellable)
    (hplain : ∀ n ∈ arguments.flatMap DecoratorArgument.numerals, n.IsPlain) :
    Reads decoratorArguments (separatedWords .comma (arguments.map DecoratorArgument.words))
      (· = arguments.map DecoratorArgument.sourceForm) (· = .symbol .closeParen) := by
  cases arguments with
  | nil => exact .nextIs_end (fun k hk => hk) (.pure rfl)
  | cons a as =>
      -- no argument begins with the closing parenthesis
      obtain ⟨w, ws, hw, hclose⟩ := exists_argument_word a
      have hlist : Reads (separatedBy .comma decoratorArgument) _ _ (· = .symbol .closeParen) :=
        Reads.separatedBy (F := AfterArgument) a as DecoratorArgument.words
          DecoratorArgument.sourceForm
          (fun b hb => reads_decoratorArgument (h b hb)
            (fun n hn => hplain n (List.mem_flatMap.mpr ⟨b, hb, hn⟩)) (by
              rintro k (rfl | rfl) <;> simp))
          (Or.inl rfl) (by rintro k rfl; exact ⟨by simp, Or.inr rfl⟩)
      rw [hw] at hlist
      simp only [List.map_cons, separatedWords, hw, List.flatMap_map]
      exact .nextIs_skip hclose hlist

/-- The decorator goes on with parentheses, if at all. -/
lemma reads_decorator {d : Decorator} (h : d.IsSpellable) (hplain : ∀ n ∈ d.numerals, n.IsPlain)
    (hF : ∀ k, F k → k ≠ .symbol .openParen) :
    Reads decorator d.words (· = d.sourceForm) F := by
  obtain ⟨name, arguments, location⟩ := d
  obtain ⟨hname, harguments⟩ := h
  refine .bind_cons (.symbol .atSign) fun _ _ => .bind_cons (reads_anyName hname) fun n hn => ?_
  subst hn
  cases arguments with
  | none => exact .takeSymbol_end hF (.pure rfl)
  | some arguments =>
      have hlist := reads_decoratorArguments harguments hplain
      refine .takeSymbol_cons (.bind hlist (fun as has => ?_) fun _ _ => rfl)
      subst has
      exact .bind_nil (.symbol .closeParen) fun _ _ => .pure rfl

/-- What may follow decorators: no more of them, and no arguments. -/
def AfterDecorators (k : TokenKind) : Prop := k ≠ .symbol .atSign ∧ k ≠ .symbol .openParen

lemma reads_decorators {h : Header} (hspellable : h.IsSpellable)
    (hplain : ∀ n ∈ h.numerals, n.IsPlain) :
    Reads decorators h.decoratorWords (· = h.sourceForm.decorators) AfterDecorators := by
  have hlist : Reads (many (· = .symbol .atSign) decorator) h.decoratorWords
      (· = (h.decorators.getD []).map Decorator.sourceForm) AfterDecorators := by
    refine Reads.many (F := (· ≠ .symbol .openParen)) _ _ _ (fun d hd => ⟨?_, _, _, rfl, rfl, by simp⟩)
      fun k hk => ⟨by simpa using hk.1, hk.2⟩
    exact reads_decorator (hspellable.decorators d hd)
      (fun n hn => hplain n (List.mem_flatMap.mpr ⟨d, hd, hn⟩)) fun k hk => hk
  refine .bind_nil hlist fun ds hds => ?_
  -- where no decorator is read, the header has none, and not an empty list of them
  have hnonempty := hspellable.nonempty
  cases hdecorators : h.decorators with
  | none =>
      rw [hds, hdecorators]
      exact .pure (by simp [Header.sourceForm, hdecorators])
  | some list =>
      rw [hds, hdecorators]
      cases list with
      | nil => exact absurd hdecorators hnonempty
      | cons d list => exact .pure (by simp [Header.sourceForm, hdecorators])

/-! ### Modifiers -/

lemma reads_integerLiteral {i : ℤ} (h : (Numeral.integer i).IsPlain) :
    Reads integerLiteral [(Numeral.integer i).word] (· = i) F := by
  refine .bind_nil (.expect (by simp [Numeral.word, Numeral.kind])) fun t ht => ?_
  have hvalue : t.value = integerText i := by rw [← Token.word_value, ht]; rfl
  rw [hvalue]
  exact .numberValue (readInteger_integerText h)

lemma reads_doubleLiteral {d : Double} (h : (Numeral.double d).IsPlain) :
    Reads doubleLiteral [(Numeral.double d).word] (· = d) F := by
  obtain ⟨hword, hread⟩ := readDouble_of_isPlain h
  refine .bind_nil (.expect (by simp [hword])) fun t ht => ?_
  have hvalue : t.value = d.text := by rw [← Token.word_value, ht]; rfl
  rw [hvalue]
  exact .numberValue hread

lemma reads_booleanLiteral (b : Bool) : Reads booleanLiteral (booleanWords b) (· = b) F := by
  refine .bind_nil (.expect ?_) fun t ht => .pure ?_
  · cases b <;> simp
  · rw [← Token.word_kind, ht]
    cases b <;> rfl

/-- A bound of a range before the symbol that closes it. -/
lemma reads_bound {α β : Type} {number : α → Numeral} {bound : Parser α} (b : Option α)
    {closing : Symbol} (hclosing : ∀ a, (number a).kind ≠ .symbol closing)
    (hbound : ∀ a ∈ b, Reads bound [(number a).word] (· = a) Anything)
    {f : Option α → Parser β} {words : List Word} {Q : β → Prop}
    (hf : Reads (f b) (.symbol closing :: words) Q F) :
    Reads (nextIs (.symbol closing) >>= fun isNext =>
      if isNext = true then pure none >>= f else some <$> bound >>= f)
      ((b.map fun a => (number a).word).toList ++ .symbol closing :: words) Q F := by
  cases b with
  | none => exact .nextIs rfl hf
  | some a =>
      refine .nextIs_skip (hclosing a) ?_
      have hsome : Reads (some <$> bound) [(number a).word] (· = some a) Anything :=
        .map (hbound a rfl) fun x hx => by rw [hx]
      exact .bind_cons hsome fun x hx => by subst hx; exact hf

/-- A range whose bounds are read one by one. -/
lemma reads_range {α : Type} {number : α → Numeral} {bound : Parser α} (b : Bounds α)
    (hnumber : ∀ (a : α) (s : Symbol), (number a).kind ≠ .symbol s)
    (hbound : ∀ a, number a ∈ b.numerals number → Reads bound [(number a).word] (· = a) Anything) :
    Reads (range bound) (b.words number) (· = b) F := by
  obtain ⟨lower, upper⟩ := b
  have hlower : ∀ a ∈ lower, Reads bound [(number a).word] (· = a) Anything := by
    rintro a rfl
    exact hbound a (by simp [Bounds.numerals])
  have hupper : ∀ a ∈ upper, Reads bound [(number a).word] (· = a) Anything := by
    rintro a rfl
    exact hbound a (by simp [Bounds.numerals])
  have hwords : Bounds.words number ⟨lower, upper⟩ = .symbol .openBracket ::
      ((lower.map fun a => (number a).word).toList ++ .symbol .comma ::
        ((upper.map fun a => (number a).word).toList ++ [.symbol .closeBracket])) := by
    simp [Bounds.words]
  rw [hwords]
  -- the comma or the bracket tells that a bound is missing
  refine .bind_cons (.symbol .openBracket) fun _ _ => ?_
  refine reads_bound lower (fun a => hnumber a .comma) hlower ?_
  refine .bind_cons (.symbol .comma) fun _ _ => ?_
  refine reads_bound upper (fun a => hnumber a .closeBracket) hupper ?_
  exact .bind_nil (.symbol .closeBracket) fun _ _ => .pure rfl

/-- A modifier with a value that the kind of the property may have. -/
lemma reads_modifier (type : String) {m : Modified} {keyword : Keyword} {value : Parser PropertyKind}
    {words : List Word} {kind : PropertyKind} (hmodifier : modifierOf? (.keyword keyword) = some keyword)
    (hseen : keyword ∉ m.seen) (hvalue : modifierValue? keyword m.kind = some value)
    (hread : Reads value words (· = kind) F) :
    Reads (modifier type m) (modifierWords keyword words)
      (· = ⟨keyword :: m.seen, m.isOptional, kind⟩) F := by
  have hoptional : keyword ≠ .optionalKw := by
    rintro rfl
    simp [modifierValue?] at hvalue
  have hcontains : m.seen.contains keyword = false := by simpa using hseen
  refine .bind_cons .advance fun t ht => ?_
  have hkind : t.kind = .keyword keyword := by rw [← Token.word_kind, ht]; rfl
  simp only [hkind, hmodifier, hcontains, Bool.false_eq_true, if_false, if_neg hoptional, hvalue]
  exact .bind_cons (.symbol .equals) fun _ _ => .bind_nil hread fun k hk => by rw [hk]; exact .pure rfl

/-- The mark of an optional property. -/
lemma reads_optional (type : String) {m : Modified} (hseen : .optionalKw ∉ m.seen) :
    Reads (modifier type m) [.keyword .optionalKw]
      (· = ⟨.optionalKw :: m.seen, true, m.kind⟩) F := by
  have hcontains : m.seen.contains .optionalKw = false := by simpa using hseen
  refine .bind_nil .advance fun t ht => ?_
  have hkind : t.kind = .keyword .optionalKw := by rw [← Token.word_kind, ht]; rfl
  simp only [hkind, modifierOf?, hcontains, Bool.false_eq_true, if_false, if_true]
  exact .pure rfl

/-- Whether a modifier follows. -/
def continuesProperty (_ : Modified) (next : TokenKind) : Bool := (modifierOf? next).isSome

end Parser

namespace PropertyKind

/-- The kind without its default and its constraint. -/
def bare : PropertyKind → PropertyKind
  | object type _ => object type.sourceForm none
  | relationship type => relationship type.sourceForm
  | boolean _ => boolean none
  | dateTime => dateTime
  | string .. => string none none
  | double .. => double none none
  | integer .. => integer none none
  | long .. => long none none

/-- The kind without its constraint. -/
def unconstrained : PropertyKind → PropertyKind
  | object type default => object type.sourceForm default
  | relationship type => relationship type.sourceForm
  | boolean default => boolean default
  | dateTime => dateTime
  | string default _ => string default none
  | double default _ => double default none
  | integer default _ => integer default none
  | long default _ => long default none

lemma unconstrained_of_default?_eq_none {kind : PropertyKind} (h : kind.default? = none) :
    kind.unconstrained = kind.bare := by
  cases kind <;> simp_all [default?, unconstrained, bare]

lemma sourceForm_of_constraint?_eq_none {kind : PropertyKind} (h : kind.constraint? = none) :
    kind.sourceForm = kind.unconstrained := by
  cases kind <;> simp_all [constraint?, unconstrained, sourceForm]

end PropertyKind

namespace Parser

variable {F : TokenKind → Prop}

/-- The value of a default is read. -/
lemma reads_defaultValue (kind : PropertyKind) (hplain : ∀ n ∈ kind.numerals, n.IsPlain) :
    ∀ words ∈ kind.default?, ∃ value, modifierValue? .defaultKw kind.bare = some value ∧
      Reads value words (· = kind.unconstrained) F := by
  have hstring : ∀ (f : String → PropertyKind) (value : String),
      Reads (do return f (← expect [.string]).value) [.string value] (· = f value) F := by
    intro f value
    refine .bind_nil (.expect (by simp)) fun t ht => .pure ?_
    rw [← Token.word_value, ht]
    rfl
  have hnumeral : ∀ {α : Type} {literal : Parser α} {a : α} {w : Word} {f : α → PropertyKind},
      Reads literal [w] (· = a) F → Reads (do return f (← literal)) [w] (· = f a) F := by
    intro α literal a w f h
    exact .bind_nil h fun b hb => by rw [hb]; exact .pure rfl
  intro words hwords
  cases kind with
  | relationship | dateTime => simp [PropertyKind.default?] at hwords
  | object type default =>
      obtain ⟨value, hvalue, rfl⟩ := Option.map_eq_some_iff.mp hwords
      rw [hvalue]
      exact ⟨_, rfl, hstring (fun v => .object type.sourceForm (some v)) value⟩
  | boolean default =>
      obtain ⟨value, hvalue, rfl⟩ := Option.map_eq_some_iff.mp hwords
      rw [hvalue]
      exact ⟨_, rfl, hnumeral (reads_booleanLiteral value)⟩
  | string default pattern =>
      obtain ⟨value, hvalue, rfl⟩ := Option.map_eq_some_iff.mp hwords
      rw [hvalue]
      exact ⟨_, rfl, hstring (fun v => .string (some v) none) value⟩
  | double default bounds =>
      obtain ⟨value, hvalue, rfl⟩ := Option.map_eq_some_iff.mp hwords
      have hread := hplain (.double value) (by simp [PropertyKind.numerals, hvalue])
      rw [hvalue]
      exact ⟨_, rfl, hnumeral (reads_doubleLiteral hread)⟩
  | integer default bounds | long default bounds =>
      obtain ⟨value, hvalue, rfl⟩ := Option.map_eq_some_iff.mp hwords
      have hread := hplain (.integer value) (by simp [PropertyKind.numerals, hvalue])
      rw [hvalue]
      exact ⟨_, rfl, hnumeral (reads_integerLiteral hread)⟩

/-- The last slash of a pattern literal divides the pattern from its flags. -/
lemma splitPattern_eq {value : String} {body flags : List Char}
    (hvalue : value.toList = body ++ '/' :: flags) (hflags : ∀ c ∈ flags, Text.isLetter c = true) :
    splitPattern value = ⟨String.ofList body, String.ofList flags⟩ := by
  have hne : ∀ c ∈ flags.reverse, decide (c ≠ '/') = true := by
    intro c hc
    have hletter := hflags c (List.mem_reverse.mp hc)
    rw [decide_eq_true_eq]
    rintro rfl
    rw [not_isLetter (not_isIdentifierPart_of_delimiter (by simp [delimiters]))] at hletter
    contradiction
  have hreverse : value.toList.reverse = flags.reverse ++ '/' :: body.reverse := by
    rw [hvalue]
    simp
  obtain ⟨htake, hdrop⟩ := takeWhile_append_of_head flags.reverse ('/' :: body.reverse) hne
    (by simp)
  simp only [splitPattern, hreverse, htake, hdrop]
  simp

/-- A pattern is read with its slashes escaped. -/
lemma splitPattern_word {p : StringPattern} (h : p.IsSpellable) :
    splitPattern p.word.value = p.sourceForm := by
  have hvalue : p.word.value.toList = (escapeSlashes p.pattern).toList ++ '/' :: p.flags.toList := by
    simp [StringPattern.word]
  rw [splitPattern_eq hvalue h.flags, String.ofList_toList, String.ofList_toList]
  rfl

/-- The value of a constraint is read. -/
lemma reads_constraintValue {kind : PropertyKind} (h : kind.IsSpellable)
    (hplain : ∀ n ∈ kind.numerals, n.IsPlain) :
    ∀ c ∈ kind.constraint?, (c.1 = .regexKw ∨ c.1 = .rangeKw) ∧
      ∃ value, modifierValue? c.1 kind.unconstrained = some value ∧
        Reads value c.2 (· = kind.sourceForm) F := by
  intro c hc
  cases kind with
  | object | relationship | boolean | dateTime => simp [PropertyKind.constraint?] at hc
  | string default pattern =>
      obtain ⟨p, hp, rfl⟩ := Option.map_eq_some_iff.mp hc
      refine ⟨Or.inl rfl, _, rfl, ?_⟩
      refine .bind_nil (.expect (by simp [StringPattern.word])) fun t ht => .pure ?_
      rw [← Token.word_value, ht, splitPattern_word (h p hp), hp]
      rfl
  | double default bounds =>
      obtain ⟨b, hb, rfl⟩ := Option.map_eq_some_iff.mp hc
      refine ⟨Or.inr rfl, _, rfl, ?_⟩
      have hbounds : Reads (range doubleLiteral) (b.words .double) (· = b) F := by
        refine reads_range b (fun d s => ?_) fun d hd => reads_doubleLiteral (hplain _ ?_)
        · simp only [Numeral.kind]
          split <;> simp
        · simp [PropertyKind.numerals, hb, hd]
      exact .bind_nil hbounds fun b' hb' => .pure (by rw [hb', hb]; rfl)
  | integer default bounds | long default bounds =>
      obtain ⟨b, hb, rfl⟩ := Option.map_eq_some_iff.mp hc
      refine ⟨Or.inr rfl, _, rfl, ?_⟩
      have hbounds : Reads (range integerLiteral) (b.words .integer) (· = b) F := by
        refine reads_range b (fun d s => by simp [Numeral.kind]) fun d hd =>
          reads_integerLiteral (hplain _ ?_)
        simp [PropertyKind.numerals, hb, hd]
      exact .bind_nil hbounds fun b' hb' => .pure (by rw [hb', hb]; rfl)

/-- What may follow a property: no more modifiers. -/
def AfterProperty (k : TokenKind) : Prop := modifierOf? k = none

/-- The modifiers of a property are read up to its end. -/
lemma reads_modifiers_end (type : String) (m : Modified) :
    Reads (foldWhile continuesProperty (modifier type) m) [] (· = m) AfterProperty := by
  refine .foldWhile_nil fun k hk => ?_
  rw [continuesProperty, hk]
  rfl

/-- Whether a property is optional is read after its other modifiers. -/
lemma reads_modifiers_optional (type : String) {seen : List Keyword} (hseen : .optionalKw ∉ seen)
    (isOptional : Bool) (kind : PropertyKind) :
    Reads (foldWhile continuesProperty (modifier type) ⟨seen, false, kind⟩)
      (if isOptional then [.keyword .optionalKw] else [])
      (fun m => m.isOptional = isOptional ∧ m.kind = kind) AfterProperty := by
  have hend : ∀ m : Modified, Reads (foldWhile continuesProperty (modifier type) m) []
      (fun m' => m'.isOptional = m.isOptional ∧ m'.kind = m.kind) AfterProperty :=
    fun m => (reads_modifiers_end type m).mono (fun m' hm' => by rw [hm']; exact ⟨rfl, rfl⟩)
      fun _ h => h
  cases isOptional with
  | false => exact hend ⟨seen, false, kind⟩
  | true =>
      exact .foldWhile_cons (F := Anything) rfl (reads_optional type hseen)
        (hend ⟨.optionalKw :: seen, true, kind⟩) fun _ _ => trivial

/-- The constraint of a property is read after its default. -/
lemma reads_modifiers_constraint (type : String) {p : Property} (h : p.kind.IsSpellable)
    (hplain : ∀ n ∈ p.kind.numerals, n.IsPlain) (seen : List Keyword)
    (hseen : ∀ k ∈ seen, k = .defaultKw) :
    Reads (foldWhile continuesProperty (modifier type) ⟨seen, false, p.kind.unconstrained⟩)
      (((p.kind.constraint?.map fun c => modifierWords c.1 c.2).getD []) ++
        (if p.isOptional then [.keyword .optionalKw] else []))
      (fun m => m.isOptional = p.isOptional ∧ m.kind = p.kind.sourceForm) AfterProperty := by
  -- the constraint is printed after the default, so that no more than a default has been seen
  cases hc : p.kind.constraint? with
  | none =>
      rw [← PropertyKind.sourceForm_of_constraint?_eq_none hc]
      exact reads_modifiers_optional type (fun hmem => by simpa using hseen _ hmem) _ _
  | some c =>
      obtain ⟨hkeyword, value, hvalue, hread⟩ := reads_constraintValue (F := Anything) h hplain c hc
      obtain ⟨hdefault, hoptional, hmodifier⟩ : c.1 ≠ .defaultKw ∧ c.1 ≠ .optionalKw ∧
          modifierOf? (.keyword c.1) = some c.1 := by
        rcases hkeyword with h | h <;> rw [h] <;> decide
      have hstep : Reads (modifier type ⟨seen, false, p.kind.unconstrained⟩)
          (modifierWords c.1 c.2) (· = ⟨c.1 :: seen, false, p.kind.sourceForm⟩) Anything :=
        reads_modifier type hmodifier (fun hmem => hdefault (hseen _ hmem)) hvalue hread
      have hrest : .optionalKw ∉ c.1 :: seen := by
        intro hmem
        rcases List.mem_cons.mp hmem with h | h
        · exact hoptional h.symm
        · simpa using hseen _ h
      exact .foldWhile_cons (by simp [continuesProperty, hmodifier]) hstep
        (reads_modifiers_optional type hrest p.isOptional p.kind.sourceForm) fun _ _ => trivial

/-- The modifiers of a property. -/
lemma reads_modifiers (type : String) {p : Property} (h : p.kind.IsSpellable)
    (hplain : ∀ n ∈ p.kind.numerals, n.IsPlain) :
    Reads (modifiers type p.kind.bare)
      ((p.kind.default?.map (modifierWords .defaultKw)).getD [] ++
        ((p.kind.constraint?.map fun c => modifierWords c.1 c.2).getD [] ++
          (if p.isOptional then [.keyword .optionalKw] else [])))
      (fun m => m.isOptional = p.isOptional ∧ m.kind = p.kind.sourceForm) AfterProperty := by
  -- the loop takes the default first, if there is one, and goes on with the constraint
  cases hd : p.kind.default? with
  | none =>
      have hrest := reads_modifiers_constraint type h hplain [] (by simp)
      rw [PropertyKind.unconstrained_of_default?_eq_none hd] at hrest
      exact hrest
  | some words =>
      obtain ⟨value, hvalue, hread⟩ := reads_defaultValue (F := Anything) p.kind hplain words hd
      have hstep : Reads (modifier type ⟨[], false, p.kind.bare⟩) (modifierWords .defaultKw words)
          (· = ⟨[.defaultKw], false, p.kind.unconstrained⟩) Anything :=
        reads_modifier type rfl (by simp) hvalue hread
      have hrest := reads_modifiers_constraint type h hplain [.defaultKw] (by simp)
      exact .foldWhile_cons rfl hstep hrest fun _ _ => trivial

/-- A name that is not that of a built-in type is that of a declaration. -/
lemma kindOfType_eq_object {type : String} (h : type ∉ primitiveNames) :
    kindOfType type = .object ⟨type, none⟩ none := by
  simp only [primitiveNames, List.mem_cons, List.not_mem_nil, or_false, not_or] at h
  rw [kindOfType.eq_def]
  split <;> simp_all

/-- The marker of a property and its type tell the bare kind. -/
lemma exists_typeWords {kind : PropertyKind} (h : kind.IsSpellable) :
    ∃ (marker : Word) (type : String), kind.typeWords = [marker, .name type] ∧ IsTypeName type ∧
      (marker.kind = .keyword .propertyKw ∧ kindOfType type = kind.bare ∨
        marker.kind = .symbol .arrow ∧ .relationship ⟨type, none⟩ = kind.bare) := by
  have hprimitive : ∀ {name : String}, name ∈ primitiveNames → IsTypeName name :=
    fun hname => isTypeName_of_mem_fixedNames (List.mem_append_left _ hname)
  cases kind with
  | object type default =>
      exact ⟨_, type.name, rfl, h.1, Or.inl ⟨rfl, kindOfType_eq_object h.2⟩⟩
  | relationship type => exact ⟨_, type.name, rfl, h, Or.inr ⟨rfl, rfl⟩⟩
  | boolean default => exact ⟨_, "Boolean", rfl, hprimitive (by simp [primitiveNames]), Or.inl ⟨rfl, rfl⟩⟩
  | dateTime => exact ⟨_, "DateTime", rfl, hprimitive (by simp [primitiveNames]), Or.inl ⟨rfl, rfl⟩⟩
  | string default pattern => exact ⟨_, "String", rfl, hprimitive (by simp [primitiveNames]), Or.inl ⟨rfl, rfl⟩⟩
  | double default bounds => exact ⟨_, "Double", rfl, hprimitive (by simp [primitiveNames]), Or.inl ⟨rfl, rfl⟩⟩
  | integer default bounds => exact ⟨_, "Integer", rfl, hprimitive (by simp [primitiveNames]), Or.inl ⟨rfl, rfl⟩⟩
  | long default bounds => exact ⟨_, "Long", rfl, hprimitive (by simp [primitiveNames]), Or.inl ⟨rfl, rfl⟩⟩

/-- The first word of a property begins a decorator or is a marker. -/
def BeginsProperty (k : TokenKind) : Prop :=
  k = .symbol .atSign ∨ k = .keyword .propertyKw ∨ k = .symbol .arrow

lemma reads_property {p : Property} (h : p.IsSpellable) (hplain : ∀ n ∈ p.numerals, n.IsPlain) :
    Reads property p.words (· = p.sourceForm) AfterProperty := by
  obtain ⟨hname, hheader, hkind⟩ := h
  obtain ⟨marker, type, htype, htypeName, hmarker⟩ := exists_typeWords hkind
  have hdecorators := reads_decorators hheader fun n hn => hplain n (List.mem_append_left _ hn)
  have hmodifiers := reads_modifiers type hkind fun n hn => hplain n (List.mem_append_right _ hn)
  have hwords : p.words = p.header.decoratorWords ++ (marker :: .name type ::
      (arrayWords p.isArray ++ (.name p.header.name ::
        ((p.kind.default?.map (modifierWords .defaultKw)).getD [] ++
          ((p.kind.constraint?.map fun c => modifierWords c.1 c.2).getD [] ++
            (if p.isOptional then [.keyword .optionalKw] else [])))))) := by
    simp [Property.words, htype]
  rw [hwords]
  refine .bind hdecorators (fun ds hds => ?_) fun rest hrest => ?_
  · refine .bind_cons (.expect ?_) fun t ht => ?_
    · rcases hmarker with h | h <;> simp [h.1]
    refine .bind_cons (reads_typeName htypeName) fun n hn => ?_
    subst hn
    refine .bind (reads_arrayMarker (F := (· = (Word.name p.header.name).kind)) p.isArray ?_)
      (fun b hb => ?_) fun rest hrest => rfl
    · rintro k rfl
      exact name_kind_ne_symbol _ _
    refine .bind_cons (reads_anyName hname) fun n' hn' => ?_
    -- marker and type tell the kind, to which the modifiers add the rest
    have hbare : (if t.kind = .symbol .arrow then PropertyKind.relationship ⟨n, none⟩
        else kindOfType n) = p.kind.bare := by
      rw [← Token.word_kind, ht]
      rcases hmarker with h | h
      · rw [if_neg (by simp [h.1]), h.2]
      · rw [if_pos h.1, h.2]
    rw [hbare]
    refine .bind_nil hmodifiers fun m hm => .pure ?_
    rw [hds, hb, hn', hm.1, hm.2]
    rfl
  · rcases hmarker with h | h <;> simp [AfterDecorators, h.1]

/-! ### Declarations -/

/-- A list in braces. -/
lemma reads_body {α γ : Type} {item : Parser α} (items : List γ) (spelled : γ → List Word)
    (result : γ → α) {G : TokenKind → Prop}
    (hitems : ∀ c ∈ items, Reads item (spelled c) (· = result c) G ∧
      ∃ w ws, spelled c = w :: ws ∧ continuesBody w.kind = true ∧ G w.kind)
    (hclose : G (.symbol .closeBrace)) :
    Reads (body item) (.symbol .openBrace :: (items.flatMap spelled ++ [.symbol .closeBrace]))
      (· = items.map result) F := by
  have hmany : Reads (many continuesBody item) (items.flatMap spelled) (· = items.map result)
      (· = .symbol .closeBrace) :=
    .many items spelled result hitems fun k hk => by rw [hk]; exact ⟨rfl, hclose⟩
  refine .bind_cons (.symbol .openBrace) fun _ _ => .bind hmany (fun as has => ?_) fun _ _ => rfl
  exact .bind_nil (.symbol .closeBrace) fun _ _ => .pure has

/-- The first word of decorators, or of what follows them. -/
lemma exists_decorated_word (h : Header) (w : Word) (words : List Word) :
    ∃ v vs, h.decoratorWords ++ w :: words = v :: vs ∧ (v.kind = .symbol .atSign ∨ v = w) := by
  cases hdecorators : h.decorators.getD [] with
  | nil => exact ⟨w, words, by simp [Header.decoratorWords, hdecorators], Or.inr rfl⟩
  | cons d ds =>
      refine ⟨.symbol .atSign, .name d.name :: (Decorator.argumentWords d.arguments ++
        (ds.flatMap Decorator.words ++ w :: words)), ?_, Or.inl rfl⟩
      simp [Header.decoratorWords, hdecorators, Decorator.words]

lemma exists_property_word {p : Property} (h : p.IsSpellable) :
    ∃ w ws, p.words = w :: ws ∧ BeginsProperty w.kind := by
  obtain ⟨marker, type, htype, -, hmarker⟩ := exists_typeWords h.kind
  obtain ⟨v, vs, hv, hkind⟩ := exists_decorated_word p.header marker (.name type ::
      (arrayWords p.isArray ++ (.name p.header.name ::
        ((p.kind.default?.map (modifierWords .defaultKw)).getD [] ++
          ((p.kind.constraint?.map fun c => modifierWords c.1 c.2).getD [] ++
            (if p.isOptional then [.keyword .optionalKw] else []))))))
  refine ⟨v, vs, ?_, ?_⟩
  · rw [← hv]
    simp [Property.words, htype]
  · rcases hkind with hkind | rfl
    · exact Or.inl hkind
    · rcases hmarker with h | h
      · exact Or.inr (Or.inl h.1)
      · exact Or.inr (Or.inr h.1)

lemma reads_enumValue {v : Header} (hname : isIdentifier v.name = true) (h : v.IsSpellable)
    (hplain : ∀ n ∈ v.numerals, n.IsPlain) :
    Reads enumValue (Enumeration.valueWords v) (· = v.sourceForm) F := by
  refine .bind (reads_decorators h hplain) (fun ds hds => ?_) fun _ _ => by simp [AfterDecorators]
  refine .bind_cons (.expect (by simp)) fun _ _ => .bind_nil (reads_anyName hname) fun n hn => .pure ?_
  rw [hds, hn]
  rfl

/-- The words of an enumeration from its own keyword on. -/
def enumerationWords (e : Enumeration) : List Word :=
  .keyword .enumKw :: .name e.header.name :: .symbol .openBrace ::
    (e.values.flatMap Enumeration.valueWords ++ [.symbol .closeBrace])

lemma enumeration_words (e : Enumeration) :
    e.words = e.header.decoratorWords ++ enumerationWords e := by
  simp [Enumeration.words, enumerationWords]

lemma reads_enumeration {e : Enumeration} (h : e.IsSpellable)
    (hplain : ∀ n ∈ e.numerals, n.IsPlain) :
    Reads (enumeration e.header.sourceForm.decorators) (enumerationWords e) (· = e.sourceForm) F := by
  refine .bind_cons (.expect (by simp)) fun _ _ => .bind_cons (reads_typeName h.name) fun n hn => ?_
  have hbody : Reads (body enumValue) _ _ F :=
    reads_body (G := Anything) e.values Enumeration.valueWords Header.sourceForm (fun v hv => by
      obtain ⟨w, ws, hw, hkind⟩ := exists_decorated_word v (.keyword .propertyKw) [.name v.name]
      refine ⟨reads_enumValue (h.values v hv).1 (h.values v hv).2 fun n hn =>
        hplain n (List.mem_append_right _ (List.mem_flatMap.mpr ⟨v, hv, hn⟩)), w, ws, hw, ?_, trivial⟩
      rcases hkind with hkind | rfl
      · rw [hkind]
        rfl
      · rfl) trivial
  refine .bind_nil hbody fun values hvalues => .pure ?_
  rw [hn, hvalues]
  rfl

/-- Whether a clause follows. -/
def continuesClauses (_ : Clauses) (next : TokenKind) : Bool :=
  next = .keyword .identifiedKw || next = .keyword .extendsKw

/-- The super type of a concept. -/
lemma reads_extends {c : Clauses} (hc : c.superType = none) {name : String} (h : IsTypeName name) :
    Reads (clause c) [.keyword .extendsKw, .name name] (· = ⟨c.identified, some ⟨name, none⟩⟩) F := by
  refine .bind_cons .advance fun t ht => ?_
  have hkind : t.kind = .keyword .extendsKw := by rw [← Token.word_kind, ht]; rfl
  rw [if_pos hkind, if_neg (by simp [hc])]
  exact .bind_nil (reads_typeName h) fun n hn => .pure (by rw [hn])

/-- The identification of a concept. -/
lemma reads_identification {c : Clauses} (hc : c.identified = none) {i : Identification}
    (h : i.IsSpellable) (hF : ∀ k, F k → k ≠ .keyword .byKw) :
    Reads (clause c) i.words (· = ⟨some i, c.superType⟩) F := by
  have hidentified : ∀ t : Token, t.word = .keyword .identifiedKw → t.kind ≠ .keyword .extendsKw := by
    intro t ht
    rw [← Token.word_kind, ht]
    simp
  cases i with
  | system =>
      refine .bind_nil .advance fun t ht => ?_
      rw [if_neg (hidentified t ht), if_neg (by simp [hc])]
      exact .takeKeyword_end hF (.pure rfl)
  | byProperty name =>
      refine .bind_cons .advance fun t ht => ?_
      rw [if_neg (hidentified t ht), if_neg (by simp [hc])]
      exact .takeKeyword_cons (.bind_nil (reads_anyName h) fun n hn => .pure (by rw [hn]))

lemma reads_clauses {c : Concept} (h : c.IsSpellable) :
    Reads clauses ((c.superType.map fun r => [.keyword .extendsKw, .name r.name]).getD [] ++
        (c.identified.map Identification.words).getD [])
      (· = ⟨c.identified, c.superType.map Reference.sourceForm⟩) (· = .symbol .openBrace) := by
  -- the super type is printed first; after either clause the loop goes on or finds the brace
  have hend : ∀ clauses, Reads (foldWhile continuesClauses clause clauses) [] (· = clauses)
      (· = .symbol .openBrace) := fun _ => .foldWhile_nil fun k hk => by rw [hk]; rfl
  have hidentified : ∀ superType, Reads (foldWhile continuesClauses clause ⟨none, superType⟩)
      ((c.identified.map Identification.words).getD []) (· = ⟨c.identified, superType⟩)
      (· = .symbol .openBrace) := by
    intro superType
    cases hi : c.identified with
    | none => exact hend _
    | some i =>
        have hstep := reads_identification (F := (· = .symbol .openBrace)) (c := ⟨none, superType⟩)
          rfl (h.identified i hi) fun k hk => by simp [hk]
        have hwords : ∃ ws, i.words = .keyword .identifiedKw :: ws := by cases i <;> exact ⟨_, rfl⟩
        obtain ⟨ws, hws⟩ := hwords
        rw [hws] at hstep
        rw [Option.map_some, Option.getD_some, hws, ← List.append_nil (_ :: ws)]
        exact .foldWhile_cons rfl hstep (hend _) fun _ h => h
  cases hsuper : c.superType with
  | none => exact hidentified none
  | some r =>
      have hstep := reads_extends (F := Anything) (c := ⟨none, none⟩) rfl (h.superType r hsuper)
      exact .foldWhile_cons rfl hstep (hidentified _) fun _ _ => trivial

/-- The words of a concept from its own keyword on. -/
def conceptWords (c : Concept) : List Word :=
  .keyword (.conceptKw c.kind) :: .name c.header.name ::
    (((c.superType.map fun r => [.keyword .extendsKw, .name r.name]).getD [] ++
      (c.identified.map Identification.words).getD []) ++
        .symbol .openBrace :: (c.properties.flatMap Property.words ++ [.symbol .closeBrace]))

lemma concept_words (c : Concept) : c.words = c.header.decoratorWords ++
    ((if c.isAbstract then [.keyword .abstractKw] else []) ++ conceptWords c) := by
  simp [Concept.words, conceptWords]

lemma reads_concept {c : Concept} (h : c.IsSpellable) (hplain : ∀ n ∈ c.numerals, n.IsPlain) :
    Reads (concept c.kind c.header.sourceForm.decorators c.isAbstract) (conceptWords c)
      (· = c.sourceForm) F := by
  refine .bind_cons .advance fun _ _ => .bind_cons (reads_typeName h.name) fun n hn => ?_
  have hbody : Reads (body property) _ _ F :=
    reads_body (G := AfterProperty) c.properties Property.words Property.sourceForm (fun p hp => by
      obtain ⟨w, ws, hw, hbegins⟩ := exists_property_word (h.properties p hp)
      refine ⟨reads_property (h.properties p hp) fun n hn =>
        hplain n (List.mem_append_right _ (List.mem_flatMap.mpr ⟨p, hp, hn⟩)), w, ws, hw, ?_⟩
      rcases hbegins with h | h | h <;> rw [h] <;> exact ⟨rfl, rfl⟩) rfl
  refine .bind (reads_clauses h) (fun clauses hclauses => ?_) fun _ _ => rfl
  refine .bind_nil hbody fun properties hproperties => .pure ?_
  rw [hn, hclauses, hproperties]
  rfl

lemma reads_declaration {d : Declaration} (h : d.IsSpellable)
    (hplain : ∀ n ∈ d.numerals, n.IsPlain) :
    Reads declaration d.words (· = d.sourceForm) F := by
  -- after the decorators, the next keyword decides; only a concept may be abstract
  cases d with
  | enumeration e =>
      have hdecorators := reads_decorators h.header fun n hn => hplain n (List.mem_append_left _ hn)
      rw [Declaration.words, enumeration_words]
      refine .bind hdecorators (fun ds hds => ?_) fun _ _ => by
        simp [AfterDecorators, enumerationWords]
      refine .takeKeyword_skip (by simp) (.peek fun t ht => ?_)
      have hkind : t.kind = .keyword .enumKw := by rw [← Token.word_kind, ht]; rfl
      simp only [hkind, Bool.false_eq_true, if_false]
      rw [hds]
      exact .bind_nil (reads_enumeration h hplain) fun e' he => .pure (by rw [he]; rfl)
  | concept c =>
      have hdecorators := reads_decorators h.header fun n hn => hplain n (List.mem_append_left _ hn)
      have hconcept := reads_concept (F := F) h hplain
      have hkind : ∀ t : Token, t.word = .keyword (.conceptKw c.kind) →
          t.kind = .keyword (.conceptKw c.kind) := fun t ht => by rw [← Token.word_kind, ht]; rfl
      rw [Declaration.words, concept_words]
      refine .bind hdecorators (fun ds hds => ?_) fun _ _ => by
        cases c.isAbstract <;> simp [AfterDecorators, conceptWords]
      subst hds
      cases habstract : c.isAbstract with
      | false =>
          rw [habstract] at hconcept
          refine .takeKeyword_skip (by simp) (.peek fun t ht => ?_)
          simp only [hkind t ht]
          exact .bind_nil hconcept fun c' hc => .pure (by rw [hc]; rfl)
      | true =>
          rw [habstract] at hconcept
          refine .takeKeyword_cons (.peek fun t ht => ?_)
          simp only [hkind t ht]
          exact .bind_nil hconcept fun c' hc => .pure (by rw [hc]; rfl)

/-- The first word of a declaration. -/
lemma exists_declaration_word (d : Declaration) :
    ∃ w ws, d.words = w :: ws ∧ beginsDeclaration w.kind = true := by
  -- the first word belongs to a decorator or is the keyword of the declaration
  have hbegin : ∀ (h : Header) (w : Word) (words : List Word), beginsDeclaration w.kind = true →
      ∃ v vs, h.decoratorWords ++ w :: words = v :: vs ∧ beginsDeclaration v.kind = true := by
    intro h w words hw
    obtain ⟨v, vs, hv, hkind⟩ := exists_decorated_word h w words
    refine ⟨v, vs, hv, ?_⟩
    rcases hkind with hkind | rfl
    · rw [hkind]
      rfl
    · exact hw
  cases d with
  | enumeration e =>
      rw [Declaration.words, enumeration_words]
      exact hbegin _ _ _ rfl
  | concept c =>
      rw [Declaration.words, concept_words]
      cases c.isAbstract
      · exact hbegin _ _ _ rfl
      · exact hbegin _ _ _ rfl

/-! ### Models -/

/-- What may follow the imports: a declaration, or the end of the text. -/
def AfterImports (k : TokenKind) : Prop := k = .eof ∨ beginsDeclaration k = true

/-- It neither is one more import nor goes on the last one. -/
lemma AfterImports.ne {k : TokenKind} (h : AfterImports k) :
    k ≠ .keyword .importKw ∧ AfterImport k := by
  rcases h with rfl | h
  · simp [AfterImport]
  · refine ⟨?_, ?_, ?_⟩ <;>
      · rintro rfl
        simp [beginsDeclaration] at h

/-- The parts of a model one after another. -/
lemma reads_model_parts (version : Option String) {ns : String}
    {importWords declarationWords : List Word} {imports : List (List Import)}
    {declarations : List Declaration} (hns : IsQualifiedName ns)
    (himports : Reads (many (· = .keyword .importKw) importStatement) importWords (· = imports)
      AfterImports)
    (hdeclarations : Reads (many (· ≠ .eof) declaration) declarationWords (· = declarations)
      (· = .eof))
    (hbegins : ∀ w ∈ importWords.head?, w.kind = .keyword .importKw)
    (hbegins' : ∀ w ∈ declarationWords.head?, beginsDeclaration w.kind = true) :
    Reads model (Model.versionWords version ++ (.keyword .namespaceKw :: (qualifiedWords ns ++
      (importWords ++ declarationWords)))) (· = ⟨ns, none, version, imports.flatten, declarations⟩)
      (· = .eof) := by
  -- what follows a part is the first word of the next one that is not empty, or the end
  have hafter : ∀ rest, nextKind rest = .eof → AfterImports (nextKind (declarationWords ++ rest)) := by
    intro rest hrest
    cases declarationWords with
    | nil => exact Or.inl hrest
    | cons w ws => exact Or.inr (hbegins' w rfl)
  refine .bind (reads_version (F := (· = .keyword .namespaceKw)) _ fun k hk => by simp [hk])
    (fun version hversion => ?_) fun _ _ => rfl
  refine .bind_cons (.expect (by simp)) fun _ _ => ?_
  refine .bind (reads_qualifiedName (F := (· ≠ .symbol .dot)) hns fun k hk => hk)
    (fun ns hns => ?_) fun rest hrest => ?_
  · refine .bind himports (fun imports himports => ?_) hafter
    refine .bind_nil hdeclarations fun declarations hdeclarations => .pure ?_
    rw [hversion, hns, himports, hdeclarations]
  · cases importWords with
    | nil => exact (hafter rest hrest).ne.2.1
    | cons w ws => simp [hbegins w rfl]

lemma reads_model {m : Model} (h : m.IsSpellable) :
    Reads model m.words (· = m.sourceForm) (· = .eof) := by
  -- both loops run over the words of their items, each of which begins with a word that goes on
  -- with the loop
  have himports : Reads (many (· = .keyword .importKw) importStatement)
      (m.imports.flatMap Import.words) (· = m.imports.map fun i => [i]) AfterImports := by
    refine Reads.many (F := AfterImport) _ _ _ (fun i hi => ⟨reads_importStatement (h.imports i hi), ?_⟩)
      fun k hk => ⟨by simpa using hk.ne.1, hk.ne.2⟩
    cases i <;> exact ⟨_, _, rfl, rfl, by simp [AfterImport]⟩
  have hdeclarations : Reads (many (· ≠ .eof) declaration)
      (m.declarations.flatMap Declaration.words) (· = m.declarations.map Declaration.sourceForm)
      (· = .eof) := by
    refine Reads.many (F := Anything) _ _ _ (fun d hd => ⟨?_, ?_⟩) fun k hk => by simp [hk, Anything]
    · exact reads_declaration (h.declarations d hd)
        fun n hn => h.numerals n (List.mem_flatMap.mpr ⟨d, hd, hn⟩)
    · obtain ⟨w, ws, hw, hbegins⟩ := exists_declaration_word d
      refine ⟨w, ws, hw, ?_, trivial⟩
      rw [decide_eq_true_eq]
      intro heof
      simp [heof, beginsDeclaration] at hbegins
  have hbegins : ∀ w ∈ (m.imports.flatMap Import.words).head?, w.kind = .keyword .importKw := by
    cases himport : m.imports with
    | nil => simp
    | cons i is => cases i <;> simp [Import.words]
  have hbegins' : ∀ w ∈ (m.declarations.flatMap Declaration.words).head?,
      beginsDeclaration w.kind = true := by
    cases m.declarations with
    | nil => simp
    | cons d ds =>
        obtain ⟨w, ws, hw, hbegins⟩ := exists_declaration_word d
        simpa [hw] using hbegins
  have hread := reads_model_parts m.concertoVersion h.ns himports hdeclarations hbegins
    hbegins'
  have hflatten : (m.imports.map fun i => [i]).flatten = m.imports := by
    rw [List.flatten_eq_flatMap, List.flatMap_map]
    simp
  rw [hflatten] at hread
  simpa [Model.words, Model.sourceForm, h.sourceUri] using hread

end Parser

/-- A text denotes the model that is read from its tokens. -/
lemma Model.parse_of_run {m : Model} {source : String} {tokens : List Token} {stop : Place}
    {s : TokenStream} (hscan : scanTokens .start .start source.toList = .ok (tokens, stop))
    (hrun : Parser.model ⟨tokens, stop⟩ = .ok (m, s)) : Model.parse source = .ok m := by
  have hstream : TokenStream.ofSource source = .ok ⟨tokens, stop⟩ := by
    rw [TokenStream.ofSource, hscan]
    rfl
  have hrun : Parser.model.run ⟨tokens, stop⟩ = .ok (m, s) := hrun
  rw [Model.parse, hstream]
  simp only [hrun]
  rfl

/-- A text denotes the model that its words are read as. -/
theorem Model.parse_of_reads {m : Model} {words : List Word}
    (h : Parser.Reads Parser.model words (· = m) (· = .eof)) {source : String} {tokens : List Token}
    {stop : Place} (hscan : scanTokens .start .start source.toList = .ok (tokens, stop))
    (hwords : tokens.map Token.word = words) : Model.parse source = .ok m := by
  obtain ⟨_, s, hread, -, rfl⟩ := h ⟨tokens, stop⟩ [] (by rw [List.append_nil]; exact hwords) rfl
  exact parse_of_run hscan hread

end Concerto
