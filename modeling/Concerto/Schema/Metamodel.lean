import Concerto.Model.Print
import Concerto.Schema.Class

/-!
The metamodel as a model of its own: the classes of nodes are its declarations.

* `namePattern`: the pattern of the names of declarations, properties and enum values;
* `metamodel`: the model of the metamodel;
* `metamodelSource`: its source text.
-/

namespace Concerto

namespace Metamodel

/-! ### Names -/

/-- The general categories of the characters that a name may begin with. -/
def letterCategories : List String := ["Lu", "Ll", "Lt", "Lm", "Lo", "Nl"]

/-- The general categories of the characters that a name may go on with, letters apart. -/
def partCategories : List String := ["Mn", "Mc", "Nd", "Pc"]

/-- The pattern of the characters of a category. -/
def categoryPattern (category : String) : String := "\\p\x7b" ++ category ++ "\x7d"

/-- The patterns of what a name may begin with; an escape is spelled out in the name. -/
def startAlternatives : List String :=
  letterCategories.map categoryPattern ++ ["\\$", "_", "\\\\u[0-9A-Fa-f]\x7b4\x7d"]

/-- The patterns of what a name may go on with. -/
def partAlternatives : List String :=
  startAlternatives ++ partCategories.map categoryPattern ++ ["\\u200C", "\\u200D"]

/-- The pattern of names, to be read with the flag for code points. -/
def namePattern : StringPattern :=
  ⟨"^(?!null|true|false)(" ++ Text.joined "|" startAlternatives ++ ")(?:" ++
    Text.joined "|" partAlternatives ++ ")*$", "u"⟩

/-! ### Declarations -/

/-- A property that has to be there. -/
def property (name : String) (kind : PropertyKind) : Property :=
  ⟨⟨name, none, none⟩, false, false, kind⟩

/-- The property may be missing. -/
def orNone (p : Property) : Property := { p with isOptional := true }

/-- The property holds several values. -/
def several (p : Property) : Property := { p with isArray := true }

/-- A text. -/
def text (name : String) : Property := property name (.string none none)

/-- A text that is a name. -/
def properName : Property := property "name" (.string none (some namePattern))

/-- A whole number. -/
def integer (name : String) : Property := property name (.integer none none)

/-- A whole number of the long type. -/
def long (name : String) : Property := property name (.long none none)

/-- A number. -/
def double (name : String) : Property := property name (.double none none)

/-- A truth value without a default. -/
def boolean (name : String) : Property := property name (.boolean none)

/-- A truth value that is false where it is missing. -/
def flag (name : String) : Property := property name (.boolean (some false))

/-- A node of a class. -/
def node (type name : String) : Property := property name (.object ⟨type, none⟩ none)

/-- The location of a node. -/
def location : Property := orNone (node "Range" "location")

/-- The decorators of a node. -/
def decorators : Property := orNone (several (node "Decorator" "decorators"))

/-- A class, which may extend another. -/
def extending (super : Option String) (name : String) (properties : List Property) :
    Declaration :=
  .concept
    { kind := .concept
      header := ⟨name, none, none⟩
      isAbstract := false
      identified := none
      superType := super.map fun s => ⟨s, none⟩
      properties := properties }

/-- A class that extends no other. -/
def plain (name : String) (properties : List Property) : Declaration :=
  extending none name properties

/-- A class below another. -/
def below (super name : String) (properties : List Property) : Declaration :=
  extending (some super) name properties

/-- A class that no node has itself. -/
def abstractClass (name : String) (properties : List Property) : Declaration :=
  match plain name properties with
  | .concept c => .concept { c with isAbstract := true }
  | d => d

/-- The classes of decorators and of what they hold. -/
def decoratorClasses : List Declaration :=
  [abstractClass "DecoratorLiteral" [location],
    below "DecoratorLiteral" "DecoratorString" [text "value"],
    below "DecoratorLiteral" "DecoratorNumber" [double "value"],
    below "DecoratorLiteral" "DecoratorBoolean" [boolean "value"],
    below "DecoratorLiteral" "DecoratorTypeReference"
      [node "TypeIdentifier" "type", flag "isArray"],
    plain "Decorator"
      [text "name", orNone (several (node "DecoratorLiteral" "arguments")), location]]

/-- The classes of declarations. -/
def declarationClasses : List Declaration :=
  [plain "Identified" [],
    below "Identified" "IdentifiedBy" [text "name"],
    abstractClass "Declaration" [properName, decorators, location],
    below "Declaration" "EnumDeclaration" [several (node "EnumProperty" "properties")],
    plain "EnumProperty" [properName, decorators, location],
    below "Declaration" "ConceptDeclaration"
      [flag "isAbstract", orNone (node "Identified" "identified"),
        orNone (node "TypeIdentifier" "superType"), several (node "Property" "properties")],
    below "ConceptDeclaration" "AssetDeclaration" [],
    below "ConceptDeclaration" "ParticipantDeclaration" [],
    below "ConceptDeclaration" "TransactionDeclaration" [],
    below "ConceptDeclaration" "EventDeclaration" []]

/-- The class of a bounded kind of property, and the class of its bounds. -/
def boundedClasses (name : String) (number : String → Property) : List Declaration :=
  [below "Property" (name ++ "Property")
      [orNone (number "defaultValue"), orNone (node (name ++ "DomainValidator") "validator")],
    plain (name ++ "DomainValidator") [orNone (number "lower"), orNone (number "upper")]]

/-- The classes of properties and of what restricts them. -/
def propertyClasses : List Declaration :=
  [abstractClass "Property"
      [properName, flag "isArray", flag "isOptional", decorators, location],
    below "Property" "RelationshipProperty" [node "TypeIdentifier" "type"],
    below "Property" "ObjectProperty"
      [orNone (text "defaultValue"), node "TypeIdentifier" "type"],
    below "Property" "BooleanProperty" [orNone (boolean "defaultValue")],
    below "Property" "DateTimeProperty" [],
    below "Property" "StringProperty"
      [orNone (text "defaultValue"), orNone (node "StringRegexValidator" "validator")],
    plain "StringRegexValidator" [text "pattern", text "flags"]] ++
  boundedClasses "Double" double ++ boundedClasses "Integer" integer ++
  boundedClasses "Long" long

/-- The classes of imports and models. -/
def modelClasses : List Declaration :=
  [abstractClass "Import" [text "namespace", orNone (text "uri")],
    below "Import" "ImportAll" [],
    below "Import" "ImportType" [text "name"],
    plain "Model"
      [text "namespace", orNone (text "sourceUri"), orNone (text "concertoVersion"),
        orNone (several (node "Import" "imports")),
        orNone (several (node "Declaration" "declarations"))],
    plain "Models" [several (node "Model" "models")]]

/-- The classes of what other nodes are made of. -/
def leafClasses : List Declaration :=
  [plain "Position" [integer "line", integer "column", integer "offset"],
    plain "Range" [node "Position" "start", node "Position" "end", orNone (text "source")],
    plain "TypeIdentifier" [text "name", orNone (text "namespace")]]

end Metamodel

/-- The metamodel as a model. -/
def metamodel : Model where
  ns := metamodelNamespace
  sourceUri := none
  concertoVersion := none
  imports := []
  declarations :=
    Metamodel.leafClasses ++ Metamodel.decoratorClasses ++ Metamodel.declarationClasses ++
      Metamodel.propertyClasses ++ Metamodel.modelClasses

/-- The source text of the metamodel. -/
def metamodelSource : String := metamodel.toSource

end Concerto
