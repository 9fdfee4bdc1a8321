import Concerto.Model.Parse
import Concerto.Model.Print
import Concerto.Proofs.Token.Scanning

/-!
The words that the source text of a model consists of, and what of the model they tell.

* `Model.words`: the words of the source text, in their order;
* `Model.numerals`: the numbers among them;
* `Model.sourceForm`: the model without what source text has no place for, with the slashes of its
  patterns escaped;
* `Model.IsSpellable`: every field of the model is one that source text can tell.
-/

namespace Concerto

/-! ### Numbers -/

/-- A number in a model. -/
inductive Numeral where
  | double (value : Double)
  | integer (value : ℤ)
  deriving DecidableEq

namespace Numeral

/-- The text of the number. -/
def text : Numeral → String
  | double d => d.text
  | integer i => integerText i

/-- The text is read back as the number. -/
def IsPlain : Numeral → Prop
  | double d => d.isFinite = true
  | integer i => IsReadable i

instance (n : Numeral) : Decidable n.IsPlain := by
  cases n <;> unfold IsPlain <;> infer_instance

/-- The number is no double, or a finite one. -/
def isFinite : Numeral → Bool
  | double d => d.isFinite
  | integer _ => true

/-- The text is a number token, unless it is the word for a double that is not finite. -/
def kind : Numeral → TokenKind
  | double d => if d.isFinite then .float else .identifier
  | integer _ => .integer

/-- The word for the number. -/
def word (n : Numeral) : Word := ⟨n.kind, n.text⟩

end Numeral

/-! ### Lists of words -/

/-- Some words after others, each but the first after a separator. -/
def separatedWords (separator : Symbol) : List (List Word) → List Word
  | [] => []
  | words :: others => words ++ others.flatMap fun ws => .symbol separator :: ws

/-- The parts of a name with dots. -/
def nameParts (name : String) : List String := (name.toList.splitOn '.').map String.ofList

/-- The characters of parts that are put together are those of the parts, with the separator between
them. -/
lemma Text.toList_joined (separator : String) (parts : List String) :
    (Text.joined separator parts).toList =
      separator.toList.intercalate (parts.map String.toList) := by
  cases parts with
  | nil => rfl
  | cons part parts =>
      induction parts generalizing part with
      | nil => simp
      | cons next parts ih =>
          have htail := ih next
          simp only [List.map_cons] at htail ⊢
          rw [Text.joined_cons_cons, String.toList_append, String.toList_append, htail,
            List.intercalate_cons_cons]

lemma toList_joinName (parts : List String) :
    (Parser.joinName parts).toList = ['.'].intercalate (parts.map String.toList) :=
  Text.toList_joined "." parts

/-- The parts of a name are put together again. -/
lemma joinName_nameParts (name : String) : Parser.joinName (nameParts name) = name := by
  rw [← String.ofList_toList (s := Parser.joinName (nameParts name)), toList_joinName, nameParts,
    List.map_map]
  have hid : String.toList ∘ String.ofList = id := by
    funext cs
    exact String.toList_ofList
  rw [hid, List.map_id, List.intercalate_splitOn, String.ofList_toList]

/-- No dot is in a name. -/
lemma dot_not_mem_of_isIdentifier {name : String} (h : isIdentifier name = true) :
    '.' ∉ name.toList := by
  simp only [isIdentifier, Bool.and_eq_true] at h
  exact not_mem_of_unitsFormName h.2 (by simp [delimiters])

/-- Parts without dots are found again. -/
lemma nameParts_joinName {parts : List String} (hne : parts ≠ [])
    (h : ∀ part ∈ parts, isIdentifier part = true) : nameParts (Parser.joinName parts) = parts := by
  rw [nameParts, toList_joinName, List.splitOn_intercalate]
  · rw [List.map_map]
    have hid : String.ofList ∘ String.toList = id := by
      funext s
      exact String.ofList_toList
    rw [hid, List.map_id]
  · intro cs hcs
    obtain ⟨part, hpart, rfl⟩ := List.mem_map.mp hcs
    exact dot_not_mem_of_isIdentifier (h part hpart)
  · simpa using hne

/-- A name with dots. -/
def qualifiedWords (name : String) : List Word :=
  separatedWords .dot ((nameParts name).map fun part => [.name part])

lemma qualifiedWords_joinName {parts : List String} (hne : parts ≠ [])
    (h : ∀ part ∈ parts, isIdentifier part = true) :
    qualifiedWords (Parser.joinName parts) =
      separatedWords .dot (parts.map fun part => [.name part]) := by
  rw [qualifiedWords, nameParts_joinName hne h]

/-- A truth value. -/
def booleanWords (b : Bool) : List Word := [.keyword (if b then .trueKw else .falseKw)]

/-- The brackets of an array. -/
def arrayWords (isArray : Bool) : List Word :=
  if isArray then [.symbol .openBracket, .symbol .closeBracket] else []

/-! ### Names -/

/-- A name of a type, which is no keyword. -/
def IsTypeName (name : String) : Prop :=
  isIdentifier name = true ∧ Keyword.ofText? name = none

instance (name : String) : Decidable (IsTypeName name) := by
  unfold IsTypeName; infer_instance

/-- A name with dots, all of whose parts are names. -/
def IsQualifiedName (name : String) : Prop := ∀ part ∈ nameParts name, isIdentifier part = true

instance (name : String) : Decidable (IsQualifiedName name) := by
  unfold IsQualifiedName; infer_instance

/-- The names of the types that are built in. -/
def primitiveNames : List String := ["String", "Boolean", "DateTime", "Double", "Integer", "Long"]

/-- The names that stand in source text by themselves. -/
def fixedNames : List String := primitiveNames ++ ["nan", "inf", "concerto", "version"]

lemma isTypeName_of_mem_fixedNames {name : String} (h : name ∈ fixedNames) : IsTypeName name := by
  have hall : ∀ name ∈ fixedNames, IsTypeName name := by decide +kernel
  exact hall name h

/-- The type without its namespace. -/
def Reference.sourceForm (r : Reference) : Reference := { r with ns := none }

/-! ### Imports -/

namespace Import

/-- The location of an import. -/
def locationWords : Option String → List Word
  | some uri => [.keyword .fromKw, .uri uri]
  | none => []

/-- The words of an import. -/
def words : Import → List Word
  | all ns uri =>
    .keyword .importKw :: qualifiedWords ns ++ [.symbol .dot, .symbol .star] ++ locationWords uri
  | type ns name uri =>
    .keyword .importKw :: qualifiedWords ns ++ [.symbol .dot, .name name] ++ locationWords uri

/-- The names and the location of the import can be told. -/
def IsSpellable : Import → Prop
  | all ns uri => IsQualifiedName ns ∧ ∀ u ∈ uri, IsLocation u
  | type ns name uri => IsQualifiedName ns ∧ isIdentifier name = true ∧ ∀ u ∈ uri, IsLocation u

end Import

/-! ### Decorators -/

namespace DecoratorArgument

/-- The words of an argument. -/
def words : DecoratorArgument → List Word
  | string value _ => [.string value]
  | number value _ => [(Numeral.double value).word]
  | boolean value _ => booleanWords value
  | type ref isArray _ => .name ref.name :: arrayWords isArray

/-- The numbers of an argument. -/
def numerals : DecoratorArgument → List Numeral
  | number value _ => [.double value]
  | _ => []

/-- The argument without what source text has no place for. -/
def sourceForm : DecoratorArgument → DecoratorArgument
  | string value _ => string value none
  | number value _ => number value none
  | boolean value _ => boolean value none
  | type ref isArray _ => type ref.sourceForm isArray none

/-- The type of an argument can be told. -/
def IsSpellable : DecoratorArgument → Prop
  | type ref _ _ => IsTypeName ref.name
  | _ => True

end DecoratorArgument

namespace Decorator

/-- The arguments of a decorator, between parentheses. -/
def argumentWords : Option (List DecoratorArgument) → List Word
  | none => []
  | some arguments =>
    .symbol .openParen :: separatedWords .comma (arguments.map DecoratorArgument.words) ++
      [.symbol .closeParen]

/-- The words of a decorator. -/
def words (d : Decorator) : List Word :=
  [.symbol .atSign, .name d.name] ++ argumentWords d.arguments

/-- The numbers of a decorator. -/
def numerals (d : Decorator) : List Numeral :=
  (d.arguments.getD []).flatMap DecoratorArgument.numerals

/-- The decorator without what source text has no place for. -/
def sourceForm (d : Decorator) : Decorator :=
  ⟨d.name, d.arguments.map (List.map DecoratorArgument.sourceForm), none⟩

/-- The names in a decorator can be told. -/
structure IsSpellable (d : Decorator) : Prop where
  name : isIdentifier d.name = true
  arguments : ∀ a ∈ d.arguments.getD [], a.IsSpellable

end Decorator

namespace Header

/-- The words of the decorators. -/
def decoratorWords (h : Header) : List Word := (h.decorators.getD []).flatMap Decorator.words

/-- The numbers of the decorators. -/
def numerals (h : Header) : List Numeral := (h.decorators.getD []).flatMap Decorator.numerals

/-- The header without what source text has no place for. -/
def sourceForm (h : Header) : Header :=
  ⟨h.name, h.decorators.map (List.map Decorator.sourceForm), none⟩

/-- The decorators can be told. A list of decorators that is empty cannot. -/
structure IsSpellable (h : Header) : Prop where
  nonempty : h.decorators ≠ some []
  decorators : ∀ d ∈ h.decorators.getD [], d.IsSpellable

end Header

/-! ### Properties -/

namespace StringPattern

/-- The pattern with its slashes escaped. -/
def sourceForm (p : StringPattern) : StringPattern := ⟨escapeSlashes p.pattern, p.flags⟩

/-- The pattern and its flags, as a token. -/
def word (p : StringPattern) : Word := ⟨.regex, escapeSlashes p.pattern ++ "/" ++ p.flags⟩

/-- The pattern may stand between slashes once those in it are escaped, and the flags are
letters. -/
structure IsSpellable (p : StringPattern) : Prop where
  nonempty : p.pattern ≠ ""
  noStar : p.pattern.toList.head? ≠ some '*'
  isText : isPatternText false p.pattern.toList = true
  flags : ∀ c ∈ p.flags.toList, Text.isLetter c = true

end StringPattern

namespace Bounds

variable {α : Type}

/-- The words of a range. -/
def words (number : α → Numeral) (b : Bounds α) : List Word :=
  [.symbol .openBracket] ++ (b.lower.map fun a => (number a).word).toList ++ [.symbol .comma] ++
    (b.upper.map fun a => (number a).word).toList ++ [.symbol .closeBracket]

/-- The numbers of a range. -/
def numerals (number : α → Numeral) (b : Bounds α) : List Numeral :=
  (b.lower.map number).toList ++ (b.upper.map number).toList

end Bounds

namespace PropertyKind

/-- The marker of a property and its type. -/
def typeWords : PropertyKind → List Word
  | object type _ => [.keyword .propertyKw, .name type.name]
  | relationship type => [.symbol .arrow, .name type.name]
  | boolean _ => [.keyword .propertyKw, .name "Boolean"]
  | dateTime => [.keyword .propertyKw, .name "DateTime"]
  | string .. => [.keyword .propertyKw, .name "String"]
  | double .. => [.keyword .propertyKw, .name "Double"]
  | integer .. => [.keyword .propertyKw, .name "Integer"]
  | long .. => [.keyword .propertyKw, .name "Long"]

/-- The words of the default. -/
def default? : PropertyKind → Option (List Word)
  | object _ default => default.map fun s => [.string s]
  | boolean default => default.map booleanWords
  | string default _ => default.map fun s => [.string s]
  | double default _ => default.map fun d => [(Numeral.double d).word]
  | integer default _ => default.map fun i => [(Numeral.integer i).word]
  | long default _ => default.map fun i => [(Numeral.integer i).word]
  | relationship _ | dateTime => none

/-- The words of the constraint, after its keyword. -/
def constraint? : PropertyKind → Option (Keyword × List Word)
  | string _ pattern => pattern.map fun p => (.regexKw, [p.word])
  | double _ bounds => bounds.map fun b => (.rangeKw, b.words .double)
  | integer _ bounds => bounds.map fun b => (.rangeKw, b.words .integer)
  | long _ bounds => bounds.map fun b => (.rangeKw, b.words .integer)
  | _ => none

/-- The numbers of a default and of a range. -/
def numerals : PropertyKind → List Numeral
  | double default bounds =>
    (default.map .double).toList ++ (bounds.map (Bounds.numerals .double)).getD []
  | integer default bounds =>
    (default.map .integer).toList ++ (bounds.map (Bounds.numerals .integer)).getD []
  | long default bounds =>
    (default.map .integer).toList ++ (bounds.map (Bounds.numerals .integer)).getD []
  | _ => []

/-- The kind without what source text has no place for. -/
def sourceForm : PropertyKind → PropertyKind
  | object type default => object type.sourceForm default
  | relationship type => relationship type.sourceForm
  | string default pattern => string default (pattern.map StringPattern.sourceForm)
  | kind => kind

/-- The type and the pattern can be told. A type with the name of a built-in one is taken for
that one. -/
def IsSpellable : PropertyKind → Prop
  | object type _ => IsTypeName type.name ∧ type.name ∉ primitiveNames
  | relationship type => IsTypeName type.name
  | string _ pattern => ∀ p ∈ pattern, p.IsSpellable
  | _ => True

end PropertyKind

/-- The words of a modifier with a value. -/
def modifierWords (keyword : Keyword) (value : List Word) : List Word :=
  [.keyword keyword, .symbol .equals] ++ value

namespace Property

/-- The words of a property. -/
def words (p : Property) : List Word :=
  p.header.decoratorWords ++ p.kind.typeWords ++ arrayWords p.isArray ++ [.name p.header.name] ++
    (p.kind.default?.map (modifierWords .defaultKw)).getD [] ++
    (p.kind.constraint?.map fun c => modifierWords c.1 c.2).getD [] ++
    (if p.isOptional then [.keyword .optionalKw] else [])

/-- The numbers of a property. -/
def numerals (p : Property) : List Numeral := p.header.numerals ++ p.kind.numerals

/-- The property without what source text has no place for. -/
def sourceForm (p : Property) : Property :=
  ⟨p.header.sourceForm, p.isArray, p.isOptional, p.kind.sourceForm⟩

/-- The property can be told. -/
structure IsSpellable (p : Property) : Prop where
  name : isIdentifier p.header.name = true
  header : p.header.IsSpellable
  kind : p.kind.IsSpellable

end Property

/-! ### Declarations -/

namespace Identification

/-- The words of the clause. -/
def words : Identification → List Word
  | system => [.keyword .identifiedKw]
  | byProperty name => [.keyword .identifiedKw, .keyword .byKw, .name name]

/-- The property in the clause can be told. -/
def IsSpellable : Identification → Prop
  | system => True
  | byProperty name => isIdentifier name = true

end Identification

namespace Concept

/-- The words of a concept. -/
def words (c : Concept) : List Word :=
  c.header.decoratorWords ++ (if c.isAbstract then [.keyword .abstractKw] else []) ++
    [.keyword (.conceptKw c.kind), .name c.header.name] ++
    (c.superType.map fun r => [.keyword .extendsKw, .name r.name]).getD [] ++
    (c.identified.map Identification.words).getD [] ++ [.symbol .openBrace] ++
    c.properties.flatMap Property.words ++ [.symbol .closeBrace]

/-- The numbers of a concept. -/
def numerals (c : Concept) : List Numeral :=
  c.header.numerals ++ c.properties.flatMap Property.numerals

/-- The concept without what source text has no place for. -/
def sourceForm (c : Concept) : Concept :=
  { c with header := c.header.sourceForm, superType := c.superType.map Reference.sourceForm,
           properties := c.properties.map Property.sourceForm }

/-- The concept can be told. -/
structure IsSpellable (c : Concept) : Prop where
  name : IsTypeName c.header.name
  header : c.header.IsSpellable
  superType : ∀ r ∈ c.superType, IsTypeName r.name
  identified : ∀ i ∈ c.identified, i.IsSpellable
  properties : ∀ p ∈ c.properties, p.IsSpellable

end Concept

namespace Enumeration

/-- The words of a value. -/
def valueWords (v : Header) : List Word :=
  v.decoratorWords ++ [.keyword .propertyKw, .name v.name]

/-- The words of an enumeration. -/
def words (e : Enumeration) : List Word :=
  e.header.decoratorWords ++ [.keyword .enumKw, .name e.header.name, .symbol .openBrace] ++
    e.values.flatMap valueWords ++ [.symbol .closeBrace]

/-- The numbers of an enumeration. -/
def numerals (e : Enumeration) : List Numeral :=
  e.header.numerals ++ e.values.flatMap Header.numerals

/-- The enumeration without what source text has no place for. -/
def sourceForm (e : Enumeration) : Enumeration :=
  ⟨e.header.sourceForm, e.values.map Header.sourceForm⟩

/-- The enumeration can be told. -/
structure IsSpellable (e : Enumeration) : Prop where
  name : IsTypeName e.header.name
  header : e.header.IsSpellable
  values : ∀ v ∈ e.values, isIdentifier v.name = true ∧ v.IsSpellable

end Enumeration

namespace Declaration

/-- The words of a declaration. -/
def words : Declaration → List Word
  | concept c => c.words
  | enumeration e => e.words

/-- The numbers of a declaration. -/
def numerals : Declaration → List Numeral
  | concept c => c.numerals
  | enumeration e => e.numerals

/-- The declaration without what source text has no place for. -/
def sourceForm : Declaration → Declaration
  | concept c => concept c.sourceForm
  | enumeration e => enumeration e.sourceForm

/-- The declaration can be told. -/
def IsSpellable : Declaration → Prop
  | concept c => c.IsSpellable
  | enumeration e => e.IsSpellable

end Declaration

/-- The kinds that a declaration begins with. -/
def beginsDeclaration : TokenKind → Bool
  | .keyword .abstractKw | .keyword .enumKw | .keyword (.conceptKw _) | .symbol .atSign => true
  | _ => false

/-! ### Models -/

namespace Model

/-- The words of the version. -/
def versionWords : Option String → List Word
  | some version => [.name "concerto", .name "version", .string version]
  | none => []

/-- The words of the source text. -/
def words (m : Model) : List Word :=
  versionWords m.concertoVersion ++ [.keyword .namespaceKw] ++ qualifiedWords m.ns ++
    m.imports.flatMap Import.words ++ m.declarations.flatMap Declaration.words

/-- The numbers of a model: of its decorators, its defaults and its ranges. -/
def numerals (m : Model) : List Numeral := m.declarations.flatMap Declaration.numerals

/-- All doubles of a model are finite. -/
def IsFinite (m : Model) : Prop := ∀ d, .double d ∈ m.numerals → d.isFinite = true

instance (m : Model) : Decidable m.IsFinite :=
  decidable_of_iff (∀ n ∈ m.numerals, n.isFinite = true)
    ⟨fun h d hd => h (.double d) hd, fun h n hn => by
      cases n with
      | double d => exact h d hn
      | integer i => rfl⟩

/-- The model without what source text has no place for, which are the locations of its nodes and
the namespaces of its references, and with the slashes of its patterns escaped. -/
def sourceForm (m : Model) : Model :=
  { m with declarations := m.declarations.map Declaration.sourceForm }

/-- Source text can tell the model. -/
structure IsSpellable (m : Model) : Prop where
  ns : IsQualifiedName m.ns
  sourceUri : m.sourceUri = none
  imports : ∀ i ∈ m.imports, i.IsSpellable
  declarations : ∀ d ∈ m.declarations, d.IsSpellable
  numerals : ∀ n ∈ m.numerals, n.IsPlain
  /-- No `from` of an import is taken for the one before a location, and each that stands before
  a location is. -/
  mode : (ImportMode.outside.run (Word.kinds m.words)).isSome

end Model

end Concerto
