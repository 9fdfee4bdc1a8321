import Concerto.Resolve.Reference
import Concerto.Schema.Artifact

/-!
Nodes of any class, and what resolving the references below them does.

* `Node`: a node by its class, or a JSON value that is none;
* `Node.ofJson`: an object that names a class is a node of it;
* `Node.resolveNames`: the node with its references resolved, as far as the first one that
  cannot be.
-/

namespace Concerto

/-- A node, or a value that is none. Nodes that no reference is resolved in are given by their
class and their JSON form. -/
inductive Node where
  | model (model : Model)
  | declaration (declaration : Declaration)
  | property (property : Property)
  | enumValue (header : Header)
  | decorator (decorator : Decorator)
  | argument (argument : DecoratorArgument)
  | other (nodeClass : NodeClass) (form : Json)
  | value (value : Json)

namespace Node

/-- The JSON form of a node. -/
def toJson : Node → Json
  | model m => m.toJson
  | declaration d => d.toJson
  | property p => p.toJson
  | enumValue h => h.toJson
  | decorator d => d.toJson
  | argument a => a.toJson
  | other _ form => form
  | value v => v

/-- A node of which only the class and the form count. -/
def otherNode {α : Type} (c : NodeClass) (encode : α → Json) (checked : Checked α) :
    Checked Node :=
  (fun a => other c (encode a)) <$> checked

/-- The node of a class with a JSON form. -/
def check (c : NodeClass) (v : Json) : Checked Node :=
  match c with
  | .position => otherNode c Position.toJson (checkPosition v)
  | .range => otherNode c Location.toJson (checkLocation v)
  | .typeIdentifier => otherNode c Reference.toJson (checkReference v)
  | .decoratorString => argument <$> checkDecoratorString v
  | .decoratorNumber => argument <$> checkDecoratorNumber v
  | .decoratorBoolean => argument <$> checkDecoratorBoolean v
  | .decoratorTypeReference => argument <$> checkDecoratorTypeReference v
  | .decorator => decorator <$> checkDecorator v
  | .identified => otherNode c Identification.toJson (checkIdentified v)
  | .identifiedBy => otherNode c Identification.toJson (checkIdentifiedBy v)
  | .stringRegexValidator => otherNode c StringPattern.toJson (checkStringPattern v)
  | .doubleDomainValidator => otherNode c (Bounds.toJson c .double) (checkBounds c checkDouble v)
  | .integerDomainValidator => otherNode c (Bounds.toJson c .int) (checkBounds c checkInteger v)
  | .longDomainValidator => otherNode c (Bounds.toJson c .int) (checkBounds c checkInteger v)
  | .objectProperty => property <$> checkPropertyOf c objectKind v
  | .relationshipProperty => property <$> checkPropertyOf c relationshipKind v
  | .booleanProperty => property <$> checkPropertyOf c booleanKind v
  | .dateTimeProperty => property <$> checkPropertyOf c dateTimeKind v
  | .stringProperty => property <$> checkPropertyOf c stringKind v
  | .doubleProperty => property <$> checkPropertyOf c doubleKind v
  | .integerProperty => property <$> checkPropertyOf c integerKind v
  | .longProperty => property <$> checkPropertyOf c longKind v
  | .enumProperty => enumValue <$> checkEnumValue v
  | .enumDeclaration => (declaration ∘ .enumeration) <$> checkEnumeration v
  | .concept kind => (declaration ∘ .concept) <$> checkConcept kind v
  | .importAll => otherNode c Import.toJson (checkImportAll v)
  | .importType => otherNode c Import.toJson (checkImportType v)
  | .model => model <$> checkModel v
  | .models => otherNode c .ofModels (checkModels v)

/-- The class that a value names. -/
def classOf? (v : Json) : Option NodeClass :=
  match v.field? FieldName.class'.json with
  | some (.string tag) => NodeClass.ofTag? tag
  | _ => none

/-- An object that names a class is a node of it; any other value stands for itself. -/
def ofJson (v : Json) : Except StructuralError Node :=
  match classOf? v with
  | some c => (check c v).accept .node
  | none => .ok (value v)

end Node

/-- What has no references to resolve: a node of another class, or no node at all. -/
inductive Unresolvable where
  | node (nodeClass : NodeClass)
  | value (value : Json)

/-- The word for the kind of a JSON value. -/
def Json.kindWord : Json → String
  | .null => "NoneType"
  | .bool _ => "bool"
  | .int _ => "int"
  | .double _ => "float"
  | .string _ => "str"
  | .array _ => "list"
  | .object _ => "dict"

/-- The message that something has no references to resolve. -/
def Unresolvable.message (u : Unresolvable) : String :=
  "Cannot resolve type names of " ++
    match u with
    | node c => c.name
    | value v => v.kindWord

/-- How resolving the references below a node ends. -/
inductive Resolution where
  | complete
  | unresolved (error : ResolutionError)
  | unresolvable (subject : Unresolvable)

/-- How a visit ends. -/
def Resolution.ofUnresolved : Unresolved → Resolution
  | none => complete
  | some name => unresolved (.unknownName name)

/-- The node after its references were resolved as far as they could be, and how that ended. -/
def Node.resolveNames (s : Settings) (t : NameTable) (n : Node) : Node × Resolution :=
  let enumValues := s.resolveEnumValueDecorators
  let step := Reference.resolve t
  let ends {α : Type} (wrap : α → Node) (visit : StateM Unresolved α) : Node × Resolution :=
    let (a, name) := resolved visit
    (wrap a, .ofUnresolved name)
  match n with
  | model m => ends model (m.visit enumValues step)
  | declaration d => ends declaration (d.visit enumValues step)
  | property p => ends property (p.visit step)
  | enumValue h => ends enumValue (h.visit step)
  | decorator d => ends decorator (d.visit step)
  | argument a => ends argument (a.visit step)
  | other c form => (other c form, .unresolvable (.node c))
  | value v => (value v, .unresolvable (.value v))

end Concerto
