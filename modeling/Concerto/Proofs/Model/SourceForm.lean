import Concerto.Proofs.Model.Soundness

/-!
What source text can tell of a model.

* `Model.words_sourceForm`, `Model.isSpellable_sourceForm`: the source form of a model has the same
  words, and can be told if and only if the model can;
* `ListsNumbers`, `Model.listsNumbers`: the words that are numbers are the numbers of the model.
-/

namespace Concerto

/-! ### Patterns -/

/-- Slashes are escaped once only. -/
lemma escapeSlashesFrom_idem (escaped : Bool) (cs : List Char) :
    escapeSlashesFrom escaped (escapeSlashesFrom escaped cs) = escapeSlashesFrom escaped cs := by
  induction cs generalizing escaped with
  | nil => rfl
  | cons c cs ih =>
      cases escaped with
      | true => simp [escapeSlashesFrom, ih]
      | false =>
          by_cases hslash : c = '/'
          · subst hslash
            simp [escapeSlashesFrom, ih]
          · simp [escapeSlashesFrom, ih, hslash]

lemma escapeSlashes_idem (pattern : String) :
    escapeSlashes (escapeSlashes pattern) = escapeSlashes pattern := by
  rw [escapeSlashes, escapeSlashes, String.toList_ofList, escapeSlashesFrom_idem]

lemma isPatternText_escapeSlashesFrom (escaped : Bool) (cs : List Char) :
    isPatternText escaped (escapeSlashesFrom escaped cs) = isPatternText escaped cs := by
  rw [← isPatternBody_escapeSlashesFrom, escapeSlashesFrom_idem, isPatternBody_escapeSlashesFrom]

/-- A pattern can be told with its slashes escaped if and only if it can be told. -/
lemma StringPattern.isSpellable_sourceForm (p : StringPattern) :
    p.sourceForm.IsSpellable ↔ p.IsSpellable := by
  -- backslashes are put before slashes only, so what a pattern begins with does not change
  have hempty : escapeSlashes p.pattern = "" ↔ p.pattern = "" := by
    rw [← String.toList_eq_nil_iff, ← String.toList_eq_nil_iff, escapeSlashes, String.toList_ofList]
    cases p.pattern.toList with
    | nil => simp [escapeSlashesFrom]
    | cons c cs =>
        simp only [escapeSlashesFrom]
        split <;> simp
  have hstar : (escapeSlashes p.pattern).toList.head? = some '*' ↔
      p.pattern.toList.head? = some '*' := by
    rw [escapeSlashes, String.toList_ofList]
    cases p.pattern.toList with
    | nil => simp [escapeSlashesFrom]
    | cons c cs =>
        simp only [escapeSlashesFrom]
        split
        · next h =>
            simp only [Bool.and_eq_true, decide_eq_true_eq] at h
            simp [h.1]
        · simp
  have htext : isPatternText false (escapeSlashes p.pattern).toList =
      isPatternText false p.pattern.toList := by
    rw [escapeSlashes, String.toList_ofList, isPatternText_escapeSlashesFrom]
  constructor
  · rintro ⟨hne, hhead, hbody, hflags⟩
    exact ⟨mt hempty.mpr hne, mt hstar.mpr hhead, htext ▸ hbody, hflags⟩
  · rintro ⟨hne, hhead, hbody, hflags⟩
    exact ⟨mt hempty.mp hne, mt hstar.mp hhead, htext.trans hbody, hflags⟩

/-! ### Nodes -/

@[simp] lemma DecoratorArgument.words_sourceForm (a : DecoratorArgument) :
    a.sourceForm.words = a.words := by
  cases a <;> rfl

@[simp] lemma DecoratorArgument.numerals_sourceForm (a : DecoratorArgument) :
    a.sourceForm.numerals = a.numerals := by
  cases a <;> rfl

@[simp] lemma DecoratorArgument.isSpellable_sourceForm (a : DecoratorArgument) :
    a.sourceForm.IsSpellable ↔ a.IsSpellable := by
  cases a <;> rfl

@[simp] lemma Decorator.words_sourceForm (d : Decorator) : d.sourceForm.words = d.words := by
  obtain ⟨name, arguments, location⟩ := d
  cases arguments with
  | none => rfl
  | some as =>
      have hwords : DecoratorArgument.words ∘ DecoratorArgument.sourceForm =
          DecoratorArgument.words := funext DecoratorArgument.words_sourceForm
      simp [Decorator.words, Decorator.sourceForm, Decorator.argumentWords, hwords]

@[simp] lemma Decorator.numerals_sourceForm (d : Decorator) :
    d.sourceForm.numerals = d.numerals := by
  obtain ⟨name, arguments, location⟩ := d
  cases arguments with
  | none => rfl
  | some as => simp [Decorator.numerals, Decorator.sourceForm, List.flatMap_map]

@[simp] lemma Decorator.isSpellable_sourceForm (d : Decorator) :
    d.sourceForm.IsSpellable ↔ d.IsSpellable := by
  have harguments : (∀ a ∈ d.sourceForm.arguments.getD [], a.IsSpellable) ↔
      ∀ a ∈ d.arguments.getD [], a.IsSpellable := by
    obtain ⟨name, arguments, location⟩ := d
    cases arguments <;> simp [Decorator.sourceForm]
  exact ⟨fun h => ⟨h.name, harguments.mp h.arguments⟩,
    fun h => ⟨h.name, harguments.mpr h.arguments⟩⟩

@[simp] lemma Header.decoratorWords_sourceForm (h : Header) :
    h.sourceForm.decoratorWords = h.decoratorWords := by
  obtain ⟨name, decorators, location⟩ := h
  cases decorators <;> simp [Header.decoratorWords, Header.sourceForm, List.flatMap_map]

@[simp] lemma Header.numerals_sourceForm (h : Header) : h.sourceForm.numerals = h.numerals := by
  obtain ⟨name, decorators, location⟩ := h
  cases decorators <;> simp [Header.numerals, Header.sourceForm, List.flatMap_map]

@[simp] lemma Header.isSpellable_sourceForm (h : Header) :
    h.sourceForm.IsSpellable ↔ h.IsSpellable := by
  have hne : h.sourceForm.decorators = some [] ↔ h.decorators = some [] := by
    obtain ⟨name, decorators, location⟩ := h
    cases decorators <;> simp [Header.sourceForm]
  have hdecorators : (∀ d ∈ h.sourceForm.decorators.getD [], d.IsSpellable) ↔
      ∀ d ∈ h.decorators.getD [], d.IsSpellable := by
    obtain ⟨name, decorators, location⟩ := h
    cases decorators <;> simp [Header.sourceForm]
  exact ⟨fun h => ⟨mt hne.mpr h.nonempty, hdecorators.mp h.decorators⟩,
    fun h => ⟨mt hne.mp h.nonempty, hdecorators.mpr h.decorators⟩⟩

lemma PropertyKind.words_sourceForm (k : PropertyKind) :
    k.sourceForm.typeWords = k.typeWords ∧ k.sourceForm.default? = k.default? ∧
      k.sourceForm.constraint? = k.constraint? ∧ k.sourceForm.numerals = k.numerals := by
  cases k with
  | string default pattern =>
      refine ⟨rfl, rfl, ?_, rfl⟩
      cases pattern with
      | none => rfl
      | some p => simp [sourceForm, constraint?, StringPattern.word, StringPattern.sourceForm,
          escapeSlashes_idem]
  | _ => exact ⟨rfl, rfl, rfl, rfl⟩

@[simp] lemma PropertyKind.isSpellable_sourceForm (k : PropertyKind) :
    k.sourceForm.IsSpellable ↔ k.IsSpellable := by
  cases k with
  | string default pattern =>
      cases pattern <;> simp [sourceForm, IsSpellable, StringPattern.isSpellable_sourceForm]
  | _ => rfl

@[simp] lemma Property.words_sourceForm (p : Property) : p.sourceForm.words = p.words := by
  obtain ⟨htype, hdefault, hconstraint, -⟩ := p.kind.words_sourceForm
  have hname : p.header.sourceForm.name = p.header.name := rfl
  simp only [Property.words, Property.sourceForm, Header.decoratorWords_sourceForm, htype, hdefault,
    hconstraint, hname]
  rfl

@[simp] lemma Property.numerals_sourceForm (p : Property) : p.sourceForm.numerals = p.numerals := by
  simp [Property.numerals, Property.sourceForm, p.kind.words_sourceForm.2.2.2]

@[simp] lemma Property.isSpellable_sourceForm (p : Property) :
    p.sourceForm.IsSpellable ↔ p.IsSpellable :=
  ⟨fun h => ⟨h.name, p.header.isSpellable_sourceForm.mp h.header,
      p.kind.isSpellable_sourceForm.mp h.kind⟩,
    fun h => ⟨h.name, p.header.isSpellable_sourceForm.mpr h.header,
      p.kind.isSpellable_sourceForm.mpr h.kind⟩⟩

@[simp] lemma Enumeration.valueWords_sourceForm (v : Header) :
    Enumeration.valueWords v.sourceForm = Enumeration.valueWords v := by
  have hname : v.sourceForm.name = v.name := rfl
  simp [Enumeration.valueWords, hname]

@[simp] lemma Declaration.words_sourceForm (d : Declaration) : d.sourceForm.words = d.words := by
  cases d with
  | concept c =>
      have hname : c.header.sourceForm.name = c.header.name := rfl
      have hsuper : ((c.superType.map Reference.sourceForm).map
          fun r => [Word.keyword .extendsKw, .name r.name]) =
            c.superType.map fun r => [Word.keyword .extendsKw, .name r.name] := by
        cases c.superType <;> rfl
      simp only [Declaration.sourceForm, Declaration.words, Concept.words, Concept.sourceForm,
        Header.decoratorWords_sourceForm, hname, hsuper, List.flatMap_map, Property.words_sourceForm]
  | enumeration e =>
      have hname : e.header.sourceForm.name = e.header.name := rfl
      simp [Declaration.sourceForm, Declaration.words, Enumeration.words, Enumeration.sourceForm,
        hname, List.flatMap_map]

@[simp] lemma Declaration.numerals_sourceForm (d : Declaration) :
    d.sourceForm.numerals = d.numerals := by
  cases d with
  | concept c => simp [sourceForm, numerals, Concept.numerals, Concept.sourceForm, List.flatMap_map]
  | enumeration e =>
      simp [sourceForm, numerals, Enumeration.numerals, Enumeration.sourceForm, List.flatMap_map]

@[simp] lemma Concept.isSpellable_sourceForm (c : Concept) :
    c.sourceForm.IsSpellable ↔ c.IsSpellable := by
  have hsuper : (∀ r ∈ c.sourceForm.superType, IsTypeName r.name) ↔
      ∀ r ∈ c.superType, IsTypeName r.name := by
    simp [Concept.sourceForm, Reference.sourceForm]
  have hproperties : (∀ p ∈ c.sourceForm.properties, p.IsSpellable) ↔
      ∀ p ∈ c.properties, p.IsSpellable := by
    simp [Concept.sourceForm]
  exact ⟨fun h => ⟨h.name, c.header.isSpellable_sourceForm.mp h.header, hsuper.mp h.superType,
      h.identified, hproperties.mp h.properties⟩,
    fun h => ⟨h.name, c.header.isSpellable_sourceForm.mpr h.header, hsuper.mpr h.superType,
      h.identified, hproperties.mpr h.properties⟩⟩

@[simp] lemma Enumeration.isSpellable_sourceForm (e : Enumeration) :
    e.sourceForm.IsSpellable ↔ e.IsSpellable := by
  have hname : ∀ v : Header, v.sourceForm.name = v.name := fun _ => rfl
  have hvalues : (∀ v ∈ e.sourceForm.values, isIdentifier v.name = true ∧ v.IsSpellable) ↔
      ∀ v ∈ e.values, isIdentifier v.name = true ∧ v.IsSpellable := by
    simp [Enumeration.sourceForm, hname]
  exact ⟨fun h => ⟨h.name, e.header.isSpellable_sourceForm.mp h.header, hvalues.mp h.values⟩,
    fun h => ⟨h.name, e.header.isSpellable_sourceForm.mpr h.header, hvalues.mpr h.values⟩⟩

@[simp] lemma Declaration.isSpellable_sourceForm (d : Declaration) :
    d.sourceForm.IsSpellable ↔ d.IsSpellable := by
  cases d with
  | concept c => exact c.isSpellable_sourceForm
  | enumeration e => exact e.isSpellable_sourceForm

/-! ### Models -/

namespace Model

lemma words_sourceForm (m : Model) : m.sourceForm.words = m.words := by
  simp [words, sourceForm, List.flatMap_map]

lemma numerals_sourceForm (m : Model) : m.sourceForm.numerals = m.numerals := by
  simp [numerals, sourceForm, List.flatMap_map]

/-- A model can be told if and only if its source form can. -/
lemma isSpellable_sourceForm (m : Model) : m.sourceForm.IsSpellable ↔ m.IsSpellable := by
  have hdeclarations : (∀ d ∈ m.sourceForm.declarations, d.IsSpellable) ↔
      ∀ d ∈ m.declarations, d.IsSpellable := by
    rw [sourceForm, List.forall_mem_map]
    simp only [Declaration.isSpellable_sourceForm]
  constructor
  · rintro ⟨hns, huri, himports, hd, hnumerals, hmode⟩
    rw [numerals_sourceForm] at hnumerals
    rw [words_sourceForm] at hmode
    exact ⟨hns, huri, himports, hdeclarations.mp hd, hnumerals, hmode⟩
  · rintro ⟨hns, huri, himports, hd, hnumerals, hmode⟩
    rw [← numerals_sourceForm] at hnumerals
    rw [← words_sourceForm] at hmode
    exact ⟨hns, huri, himports, hdeclarations.mpr hd, hnumerals, hmode⟩

end Model

/-! ### Numbers -/

/-- The words that are numbers are those of the numbers, in their order, as far as these are numbers. -/
def ListsNumbers (words : List Word) (numerals : List Numeral) : Prop :=
  words.filter Word.isNumber = (numerals.map Numeral.word).filter Word.isNumber

namespace ListsNumbers

variable {words words' : List Word} {numerals numerals' : List Numeral}

/-- So there are as many of them. -/
lemma countP_eq (h : ListsNumbers words numerals) :
    words.countP Word.isNumber = numerals.countP fun n => n.word.isNumber := by
  rw [List.countP_eq_length_filter, h, ← List.countP_eq_length_filter, List.countP_map]
  rfl

/-- Words without numbers. -/
lemma of_none (h : ∀ w ∈ words, w.isNumber = false) : ListsNumbers words [] := by
  rw [ListsNumbers, List.map_nil, List.filter_nil, List.filter_eq_nil_iff]
  intro w hw
  simp [h w hw]

lemma append (h : ListsNumbers words numerals) (h' : ListsNumbers words' numerals') :
    ListsNumbers (words ++ words') (numerals ++ numerals') := by
  rw [ListsNumbers, List.filter_append, List.map_append, List.filter_append, h, h']

/-- A word that is no number before others. -/
lemma cons {w : Word} (hw : w.isNumber = false) (h : ListsNumbers words numerals) :
    ListsNumbers (w :: words) numerals := by
  have hword : ListsNumbers [w] [] := of_none (by simpa using hw)
  exact hword.append h

/-- The word of a number. -/
lemma numeral (n : Numeral) : ListsNumbers [n.word] [n] := rfl

lemma flatMap {α : Type} (items : List α) {spelled : α → List Word} {counted : α → List Numeral}
    (h : ∀ a, ListsNumbers (spelled a) (counted a)) :
    ListsNumbers (items.flatMap spelled) (items.flatMap counted) := by
  induction items with
  | nil => exact of_none (by simp)
  | cons a as ih => exact (h a).append ih

end ListsNumbers

open ListsNumbers

lemma isNumber_qualifiedWords (name : String) :
    ∀ w ∈ qualifiedWords name, w.isNumber = false := by
  intro w hw
  rw [qualifiedWords] at hw
  cases hparts : nameParts name with
  | nil => simp [hparts, separatedWords] at hw
  | cons part parts =>
      simp only [hparts, separatedWords, List.map_cons, List.flatMap_map, List.mem_append,
        List.mem_flatMap, List.mem_cons, List.not_mem_nil, or_false] at hw
      obtain rfl | ⟨part, -, rfl | rfl⟩ := hw
      · exact Parser.isNumber_name _
      · rfl
      · exact Parser.isNumber_name _

lemma isNumber_arrayWords (isArray : Bool) : ∀ w ∈ arrayWords isArray, w.isNumber = false := by
  cases isArray <;> simp [arrayWords, Word.isNumber]

lemma DecoratorArgument.listsNumbers (a : DecoratorArgument) :
    ListsNumbers a.words a.numerals := by
  cases a with
  | number value location => exact .numeral (.double value)
  | type ref isArray location =>
      exact .cons (Parser.isNumber_name _) (.of_none (isNumber_arrayWords isArray))
  | string | boolean => exact .of_none (by simp [words, booleanWords, Word.isNumber])

lemma Decorator.listsNumbers (d : Decorator) : ListsNumbers d.words d.numerals := by
  obtain ⟨name, arguments, location⟩ := d
  refine .cons rfl (.cons (Parser.isNumber_name name) ?_)
  cases arguments with
  | none => exact .of_none (by simp [argumentWords])
  | some as =>
      refine .cons rfl ?_
      rw [← List.append_nil (Decorator.numerals _)]
      refine .append ?_ (.of_none (by simp [Word.isNumber]))
      cases as with
      | nil => exact .of_none (by simp [separatedWords])
      | cons a as =>
          simp only [separatedWords, List.map_cons, List.flatMap_map]
          exact a.listsNumbers.append (.flatMap as fun a => .cons rfl a.listsNumbers)

lemma Header.listsNumbers (h : Header) : ListsNumbers h.decoratorWords h.numerals :=
  .flatMap _ Decorator.listsNumbers

lemma Bounds.listsNumbers {α : Type} (number : α → Numeral) (b : Bounds α) :
    ListsNumbers (b.words number) (b.numerals number) := by
  have hside : ∀ a : Option α, ListsNumbers (a.map fun a => (number a).word).toList
      (a.map number).toList := by
    intro a
    cases a with
    | none => exact .of_none (by simp)
    | some a => exact .numeral (number a)
  have hclose : ListsNumbers [Word.symbol .closeBracket] [] := .cons rfl (.of_none (by simp))
  have hwords := ListsNumbers.cons (w := .symbol .openBracket) rfl
    ((hside b.lower).append (.cons (w := .symbol .comma) rfl ((hside b.upper).append hclose)))
  simpa [Bounds.words, Bounds.numerals] using hwords

/-- The words of the modifiers of a property. -/
lemma PropertyKind.listsNumbers (k : PropertyKind) :
    ListsNumbers ((k.default?.map (modifierWords .defaultKw)).getD [] ++
      (k.constraint?.map fun c => modifierWords c.1 c.2).getD []) k.numerals := by
  -- only the three kinds of numbers have any, their default value before the ends of their range
  have hnumber : ∀ {α : Type} (number : α → Numeral) (default : Option α)
      (bounds : Option (Bounds α)), ListsNumbers
        (((default.map fun a => [(number a).word]).map (modifierWords .defaultKw)).getD [] ++
          ((bounds.map fun b => (Keyword.rangeKw, b.words number)).map
            fun c => modifierWords c.1 c.2).getD [])
        ((default.map number).toList ++ (bounds.map (Bounds.numerals number)).getD []) := by
    intro α number default bounds
    refine .append ?_ ?_
    · cases default with
      | none => exact .of_none (by simp)
      | some a => exact .cons rfl (.cons rfl (.numeral (number a)))
    · cases bounds with
      | none => exact .of_none (by simp)
      | some b => exact .cons rfl (.cons rfl (b.listsNumbers number))
  cases k with
  | double default bounds => exact hnumber .double default bounds
  | integer default bounds | long default bounds => exact hnumber .integer default bounds
  | relationship | dateTime => exact .of_none (by simp [default?, constraint?])
  | object type default =>
      refine .of_none ?_
      cases default <;> simp [default?, constraint?, modifierWords, Word.isNumber]
  | boolean default =>
      refine .of_none ?_
      cases default <;> simp [default?, constraint?, modifierWords, booleanWords, Word.isNumber]
  | string default pattern =>
      refine .of_none ?_
      cases default <;> cases pattern <;>
        simp [default?, constraint?, modifierWords, StringPattern.word, Word.isNumber]

lemma Property.listsNumbers (p : Property) : ListsNumbers p.words p.numerals := by
  have htype : ListsNumbers p.kind.typeWords [] := by
    refine .of_none ?_
    cases p.kind <;> simp only [PropertyKind.typeWords, List.forall_mem_cons] <;>
      exact ⟨rfl, Parser.isNumber_name _, by simp⟩
  have hoptional : ListsNumbers (if p.isOptional then [.keyword .optionalKw] else []) [] := by
    refine .of_none ?_
    cases p.isOptional <;> simp [Word.isNumber]
  have hwords := p.header.listsNumbers.append (htype.append
    ((ListsNumbers.of_none (isNumber_arrayWords p.isArray)).append
      (.cons (Parser.isNumber_name p.header.name) (p.kind.listsNumbers.append hoptional))))
  simpa [Property.words, Property.numerals] using hwords

lemma Concept.listsNumbers (c : Concept) : ListsNumbers c.words c.numerals := by
  have habstract : ListsNumbers (if c.isAbstract then [Word.keyword .abstractKw] else []) [] := by
    refine .of_none ?_
    cases c.isAbstract <;> simp [Word.isNumber]
  have hsuper : ListsNumbers
      ((c.superType.map fun r => [.keyword .extendsKw, .name r.name]).getD []) [] := by
    refine .of_none ?_
    cases c.superType with
    | none => simp
    | some r =>
        simp only [Option.map_some, Option.getD_some, List.forall_mem_cons]
        exact ⟨rfl, Parser.isNumber_name _, by simp⟩
  have hidentified : ListsNumbers ((c.identified.map Identification.words).getD []) [] := by
    refine .of_none ?_
    cases c.identified with
    | none => simp
    | some i =>
        cases i with
        | system => simp [Identification.words, Word.isNumber]
        | byProperty name =>
            simp only [Option.map_some, Option.getD_some, Identification.words,
              List.forall_mem_cons]
            exact ⟨rfl, rfl, Parser.isNumber_name name, by simp⟩
  have hclose : ListsNumbers [Word.symbol .closeBrace] [] := .cons rfl (.of_none (by simp))
  have hwords := c.header.listsNumbers.append (habstract.append
    (.cons (w := .keyword (.conceptKw c.kind)) rfl (.cons (Parser.isNumber_name c.header.name)
      (hsuper.append (hidentified.append (.cons (w := .symbol .openBrace) rfl
        ((ListsNumbers.flatMap c.properties Property.listsNumbers).append hclose)))))))
  simpa [Concept.words, Concept.numerals] using hwords

lemma Enumeration.listsNumbers (e : Enumeration) : ListsNumbers e.words e.numerals := by
  have hvalue : ∀ v : Header, ListsNumbers (Enumeration.valueWords v) v.numerals := by
    intro v
    have hname : ListsNumbers [.keyword .propertyKw, .name v.name] [] :=
      .cons rfl (.cons (Parser.isNumber_name v.name) (.of_none (by simp)))
    simpa [Enumeration.valueWords] using v.listsNumbers.append hname
  have hclose : ListsNumbers [Word.symbol .closeBrace] [] := .cons rfl (.of_none (by simp))
  have hwords := e.header.listsNumbers.append (.cons (w := .keyword .enumKw) rfl
    (.cons (Parser.isNumber_name e.header.name) (.cons (w := .symbol .openBrace) rfl
      ((ListsNumbers.flatMap e.values hvalue).append hclose))))
  simpa [Enumeration.words, Enumeration.numerals] using hwords

lemma Declaration.listsNumbers (d : Declaration) : ListsNumbers d.words d.numerals := by
  cases d with
  | concept c => exact c.listsNumbers
  | enumeration e => exact e.listsNumbers

lemma Import.isNumber_words (i : Import) : ∀ w ∈ i.words, w.isNumber = false := by
  have hlocation : ∀ uri, ∀ w ∈ locationWords uri, w.isNumber = false := by
    intro uri
    cases uri <;> simp [locationWords, Word.isNumber]
  cases i with
  | all ns uri =>
      simp only [words, List.forall_mem_append, List.forall_mem_cons]
      exact ⟨⟨⟨rfl, isNumber_qualifiedWords ns⟩, rfl, rfl, by simp⟩, hlocation uri⟩
  | type ns name uri =>
      simp only [words, List.forall_mem_append, List.forall_mem_cons]
      exact ⟨⟨⟨rfl, isNumber_qualifiedWords ns⟩, rfl, Parser.isNumber_name name, by simp⟩,
        hlocation uri⟩

/-- The numbers among the words of a model are its numbers, except for doubles that are not finite. -/
theorem Model.listsNumbers (m : Model) : ListsNumbers m.words m.numerals := by
  have hversion : ∀ w ∈ versionWords m.concertoVersion, w.isNumber = false := by
    cases m.concertoVersion with
    | none => simp [versionWords]
    | some version =>
        simp only [versionWords, List.forall_mem_cons]
        exact ⟨Parser.isNumber_name _, Parser.isNumber_name _, rfl, by simp⟩
  have hhead : ListsNumbers (versionWords m.concertoVersion ++ [.keyword .namespaceKw] ++
      qualifiedWords m.ns ++ m.imports.flatMap Import.words) [] := by
    refine .of_none ?_
    simp only [List.forall_mem_append, List.forall_mem_singleton, List.forall_mem_flatMap]
    exact ⟨⟨⟨hversion, rfl⟩, isNumber_qualifiedWords m.ns⟩, fun i _ => i.isNumber_words⟩
  exact hhead.append (.flatMap m.declarations Declaration.listsNumbers)

end Concerto
