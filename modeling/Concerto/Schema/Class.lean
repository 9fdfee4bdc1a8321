import Concerto.Model.Basic

/-!
The classes of the metamodel: each node of a model has one, and its JSON form names it.

* `NodeClass`: the classes;
* `NodeClass.tag`: the name of a class within the namespace of the metamodel;
* `NodeClass.ofTag?`: the class with a name.
-/

namespace Concerto

/-- The namespace of the metamodel. -/
def metamodelNamespace : String := "concerto.metamodel"

/-- The classes of nodes. -/
inductive NodeClass where
  | position
  | range
  | typeIdentifier
  | decoratorString
  | decoratorNumber
  | decoratorBoolean
  | decoratorTypeReference
  | decorator
  | identified
  | identifiedBy
  | stringRegexValidator
  | doubleDomainValidator
  | integerDomainValidator
  | longDomainValidator
  | objectProperty
  | relationshipProperty
  | booleanProperty
  | dateTimeProperty
  | stringProperty
  | doubleProperty
  | integerProperty
  | longProperty
  | enumProperty
  | enumDeclaration
  | concept (kind : ConceptKind)
  | importAll
  | importType
  | model
  | models
  deriving DecidableEq, Repr

namespace NodeClass

/-- The name of a class. -/
def name : NodeClass → String
  | position => "Position"
  | range => "Range"
  | typeIdentifier => "TypeIdentifier"
  | decoratorString => "DecoratorString"
  | decoratorNumber => "DecoratorNumber"
  | decoratorBoolean => "DecoratorBoolean"
  | decoratorTypeReference => "DecoratorTypeReference"
  | decorator => "Decorator"
  | identified => "Identified"
  | identifiedBy => "IdentifiedBy"
  | stringRegexValidator => "StringRegexValidator"
  | doubleDomainValidator => "DoubleDomainValidator"
  | integerDomainValidator => "IntegerDomainValidator"
  | longDomainValidator => "LongDomainValidator"
  | objectProperty => "ObjectProperty"
  | relationshipProperty => "RelationshipProperty"
  | booleanProperty => "BooleanProperty"
  | dateTimeProperty => "DateTimeProperty"
  | stringProperty => "StringProperty"
  | doubleProperty => "DoubleProperty"
  | integerProperty => "IntegerProperty"
  | longProperty => "LongProperty"
  | enumProperty => "EnumProperty"
  | enumDeclaration => "EnumDeclaration"
  | concept .concept => "ConceptDeclaration"
  | concept .asset => "AssetDeclaration"
  | concept .participant => "ParticipantDeclaration"
  | concept .transaction => "TransactionDeclaration"
  | concept .event => "EventDeclaration"
  | importAll => "ImportAll"
  | importType => "ImportType"
  | model => "Model"
  | models => "Models"

/-- The name of a class within the namespace of the metamodel. -/
def tag (c : NodeClass) : String := metamodelNamespace ++ "." ++ c.name

/-- Every class. -/
def all : List NodeClass :=
  [position, range, typeIdentifier, decoratorString, decoratorNumber, decoratorBoolean,
    decoratorTypeReference, decorator, identified, identifiedBy, stringRegexValidator,
    doubleDomainValidator, integerDomainValidator, longDomainValidator, objectProperty,
    relationshipProperty, booleanProperty, dateTimeProperty, stringProperty, doubleProperty,
    integerProperty, longProperty, enumProperty, enumDeclaration, concept .concept,
    concept .asset, concept .participant, concept .transaction, concept .event, importAll,
    importType, model, models]

/-- The class with a name within the namespace of the metamodel. -/
def ofTag? (tag : String) : Option NodeClass := all.find? fun c => c.tag = tag

theorem mem_all (c : NodeClass) : c ∈ all := by
  cases c with
  | concept kind => cases kind <;> decide
  | _ => decide

theorem name_inj {c d : NodeClass} : c.name = d.name ↔ c = d := by
  have hall : ∀ c ∈ all, ∀ d ∈ all, c.name = d.name → c = d := by decide +kernel
  exact ⟨hall c c.mem_all d d.mem_all, congrArg name⟩

@[simp] theorem tag_inj {c d : NodeClass} : c.tag = d.tag ↔ c = d := by
  rw [tag, tag, String.append_right_inj, name_inj]

theorem ofTag?_tag (c : NodeClass) : ofTag? c.tag = some c := by
  have hall : ∀ c ∈ all, (all.find? fun d => d = c) = some c := by decide +kernel
  simpa only [ofTag?, tag_inj] using hall c c.mem_all

end NodeClass

/-- The class of a kind of property. -/
def PropertyKind.nodeClass : PropertyKind → NodeClass
  | object .. => .objectProperty
  | relationship _ => .relationshipProperty
  | boolean _ => .booleanProperty
  | dateTime => .dateTimeProperty
  | string .. => .stringProperty
  | double .. => .doubleProperty
  | integer .. => .integerProperty
  | long .. => .longProperty

/-- The class of an argument of a decorator. -/
def DecoratorArgument.nodeClass : DecoratorArgument → NodeClass
  | string .. => .decoratorString
  | number .. => .decoratorNumber
  | boolean .. => .decoratorBoolean
  | type .. => .decoratorTypeReference

end Concerto
