import Concerto.Identifier
import Concerto.Schema.Field
import Concerto.Schema.Scalar

/-!
Checking JSON values against the metamodel, which builds models of them.

* `checkModel`, `checkModels`: a model and several;
* `checkDeclaration`, `checkProperty`, `checkDecorator` and the others: their nodes.
-/

namespace Concerto

/-! ### Leaves -/

/-- A point in a source text. -/
def checkPosition : Json → Checked Position :=
  checkNode .position fun fields =>
    (fun _ line column offset => ⟨line, column, offset⟩) <$>
      ownClass .position fields <*> required (.single "line") checkInteger fields <*>
      required (.single "column") checkInteger fields <*>
      required (.single "offset") checkInteger fields

/-- A part of a source text. -/
def checkLocation : Json → Checked Location :=
  checkNode .range fun fields =>
    (fun _ start stop source => ⟨start, stop, source⟩) <$>
      ownClass .range fields <*> required (.single "start") checkPosition fields <*>
      required (.single "end") checkPosition fields <*>
      optional (.single "source") checkString fields

/-- The location of a node. -/
def locationField : Fields → Checked (Option Location) :=
  optional (.single "location") checkLocation

/-- A reference. -/
def checkReference : Json → Checked Reference :=
  checkNode .typeIdentifier fun fields =>
    (fun _ name ns => ⟨name, ns⟩) <$>
      ownClass .typeIdentifier fields <*> required (.single "name") checkString fields <*>
      optional (.single "namespace") checkString fields

/-- A text that is a name. -/
def checkIdentifier (value : Json) : Checked String :=
  match checkString value with
  | .ok name => if isIdentifier name then .ok name else .problem (.notIdentifier name)
  | .bad vs => .bad vs

/-! ### Decorators -/

/-- An argument that is a text. -/
def checkDecoratorString : Json → Checked DecoratorArgument :=
  checkNode .decoratorString fun fields =>
    (fun _ value location => .string value location) <$>
      ownClass .decoratorString fields <*> required (.single "value") checkString fields <*>
      locationField fields

/-- An argument that is a number. -/
def checkDecoratorNumber : Json → Checked DecoratorArgument :=
  checkNode .decoratorNumber fun fields =>
    (fun _ value location => .number value location) <$>
      ownClass .decoratorNumber fields <*> required (.single "value") checkDouble fields <*>
      locationField fields

/-- An argument that is a truth value. -/
def checkDecoratorBoolean : Json → Checked DecoratorArgument :=
  checkNode .decoratorBoolean fun fields =>
    (fun _ value location => .boolean value location) <$>
      ownClass .decoratorBoolean fields <*> required (.single "value") checkBoolean fields <*>
      locationField fields

/-- An argument that names a type. -/
def checkDecoratorTypeReference : Json → Checked DecoratorArgument :=
  checkNode .decoratorTypeReference fun fields =>
    (fun _ type isArray location => .type type isArray location) <$>
      ownClass .decoratorTypeReference fields <*>
      required (.single "type") checkReference fields <*>
      defaulted ⟨"isArray", "is_array"⟩ false checkBoolean fields <*> locationField fields

/-- An argument of a decorator. -/
def checkDecoratorArgument : Json → Checked DecoratorArgument :=
  checkTagged [(.decoratorString, checkDecoratorString), (.decoratorNumber, checkDecoratorNumber),
    (.decoratorBoolean, checkDecoratorBoolean),
    (.decoratorTypeReference, checkDecoratorTypeReference)]

/-- A decorator. -/
def checkDecorator : Json → Checked Decorator :=
  checkNode .decorator fun fields =>
    (fun _ name arguments location => ⟨name, arguments, location⟩) <$>
      ownClass .decorator fields <*> required (.single "name") checkString fields <*>
      optional (.single "arguments") (checkList checkDecoratorArgument) fields <*>
      locationField fields

/-- The fields that declarations, properties and enum values begin with. -/
def headerOf (fields : Fields) : Checked Header :=
  Header.mk <$> required (.single "name") checkIdentifier fields <*>
    optional (.single "decorators") (checkList checkDecorator) fields <*> locationField fields

/-! ### Properties -/

/-- A pattern. -/
def checkStringPattern : Json → Checked StringPattern :=
  checkNode .stringRegexValidator fun fields =>
    (fun _ pattern flags => ⟨pattern, flags⟩) <$>
      ownClass .stringRegexValidator fields <*>
      required (.single "pattern") checkString fields <*>
      defaulted (.single "flags") "" checkString fields

/-- The bounds of a class with a check for its numbers. -/
def checkBounds {α : Type} (c : NodeClass) (number : Json → Checked α) :
    Json → Checked (Bounds α) :=
  checkNode c fun fields =>
    (fun _ lower upper => ⟨lower, upper⟩) <$>
      ownClass c fields <*> optional (.single "lower") number fields <*>
      optional (.single "upper") number fields

/-- A property of a class, with a check for the fields that only the class has. -/
def checkPropertyOf (c : NodeClass) (kind : Fields → Checked PropertyKind) :
    Json → Checked Property :=
  checkNode c fun fields =>
    (fun header isArray isOptional _ kind => ⟨header, isArray, isOptional, kind⟩) <$>
      headerOf fields <*> defaulted ⟨"isArray", "is_array"⟩ false checkBoolean fields <*>
      defaulted ⟨"isOptional", "is_optional"⟩ false checkBoolean fields <*>
      ownClass c fields <*> kind fields

/-- The default of a property. -/
def defaultOf {α : Type} (check : Json → Checked α) : Fields → Checked (Option α) :=
  optional NodeClass.defaultField check

/-- What a property of an object type has. -/
def objectKind (fields : Fields) : Checked PropertyKind :=
  .object <$> required (.single "type") checkReference fields <*> defaultOf checkString fields

/-- What a relationship has. -/
def relationshipKind (fields : Fields) : Checked PropertyKind :=
  .relationship <$> required (.single "type") checkReference fields

/-- What a truth value has. -/
def booleanKind (fields : Fields) : Checked PropertyKind :=
  .boolean <$> defaultOf checkBoolean fields

/-- What a point in time has. -/
def dateTimeKind (_ : Fields) : Checked PropertyKind := .ok .dateTime

/-- What a text has. -/
def stringKind (fields : Fields) : Checked PropertyKind :=
  .string <$> defaultOf checkString fields <*>
    optional (.single "validator") checkStringPattern fields

/-- What a double has. -/
def doubleKind (fields : Fields) : Checked PropertyKind :=
  .double <$> defaultOf checkDouble fields <*>
    optional (.single "validator") (checkBounds .doubleDomainValidator checkDouble) fields

/-- What a whole number has. -/
def integerKind (fields : Fields) : Checked PropertyKind :=
  .integer <$> defaultOf checkInteger fields <*>
    optional (.single "validator") (checkBounds .integerDomainValidator checkInteger) fields

/-- What a whole number of the long type has. -/
def longKind (fields : Fields) : Checked PropertyKind :=
  .long <$> defaultOf checkInteger fields <*>
    optional (.single "validator") (checkBounds .longDomainValidator checkInteger) fields

/-- The classes of properties, with the fields that only the class has. -/
def propertyKinds : List (NodeClass × (Fields → Checked PropertyKind)) :=
  [(.objectProperty, objectKind), (.relationshipProperty, relationshipKind),
    (.booleanProperty, booleanKind), (.dateTimeProperty, dateTimeKind),
    (.stringProperty, stringKind), (.doubleProperty, doubleKind),
    (.integerProperty, integerKind), (.longProperty, longKind)]

/-- A property. -/
def checkProperty : Json → Checked Property :=
  checkTagged (propertyKinds.map fun (c, kind) => (c, checkPropertyOf c kind))

/-- A value of an enumeration. -/
def checkEnumValue : Json → Checked Header :=
  checkNode .enumProperty fun fields =>
    (fun header _ => header) <$> headerOf fields <*> ownClass .enumProperty fields

/-! ### Declarations -/

/-- The mark of a concept whose instances the system tells apart. -/
def checkIdentified : Json → Checked Identification :=
  checkNode .identified fun fields => (fun _ => .system) <$> ownClass .identified fields

/-- The mark of a concept whose instances a property tells apart. -/
def checkIdentifiedBy : Json → Checked Identification :=
  checkNode .identifiedBy fun fields =>
    (fun _ name => .byProperty name) <$>
      ownClass .identifiedBy fields <*> required (.single "name") checkString fields

/-- The identification of a concept. -/
def checkIdentification : Json → Checked Identification :=
  checkTagged [(.identified, checkIdentified), (.identifiedBy, checkIdentifiedBy)]

/-- A concept of a kind. -/
def checkConcept (kind : ConceptKind) : Json → Checked Concept :=
  checkNode (.concept kind) fun fields =>
    (fun header _ isAbstract identified superType properties =>
        ⟨kind, header, isAbstract, identified, superType, properties⟩) <$>
      headerOf fields <*> ownClass (.concept kind) fields <*>
      defaulted ⟨"isAbstract", "is_abstract"⟩ false checkBoolean fields <*>
      optional (.single "identified") checkIdentification fields <*>
      optional ⟨"superType", "super_type"⟩ checkReference fields <*>
      defaulted (.single "properties") [] (checkList checkProperty) fields

/-- An enumeration. -/
def checkEnumeration : Json → Checked Enumeration :=
  checkNode .enumDeclaration fun fields =>
    (fun header _ values => ⟨header, values⟩) <$>
      headerOf fields <*> ownClass .enumDeclaration fields <*>
      defaulted (.single "properties") [] (checkList checkEnumValue) fields

/-- The declarations by class. -/
def declarationCases : List (NodeClass × (Json → Checked Declaration)) :=
  [.concept, .asset, .participant, .transaction, .event].map
      (fun kind => (.concept kind, fun value => .concept <$> checkConcept kind value)) ++
    [(.enumDeclaration, fun value => .enumeration <$> checkEnumeration value)]

/-- A declaration. -/
def checkDeclaration : Json → Checked Declaration := checkTagged declarationCases

/-! ### Models -/

/-- An import of a whole namespace. -/
def checkImportAll : Json → Checked Import :=
  checkNode .importAll fun fields =>
    (fun _ ns uri => .all ns uri) <$>
      ownClass .importAll fields <*> required (.single "namespace") checkString fields <*>
      optional (.single "uri") checkString fields

/-- An import of one declaration. -/
def checkImportType : Json → Checked Import :=
  checkNode .importType fun fields =>
    (fun _ ns name uri => .type ns name uri) <$>
      ownClass .importType fields <*> required (.single "namespace") checkString fields <*>
      required (.single "name") checkString fields <*>
      optional (.single "uri") checkString fields

/-- An import. -/
def checkImport : Json → Checked Import :=
  checkTagged [(.importAll, checkImportAll), (.importType, checkImportType)]

/-- A model. -/
def checkModel : Json → Checked Model :=
  checkNode .model fun fields =>
    (fun _ ns sourceUri concertoVersion imports declarations =>
        ⟨ns, sourceUri, concertoVersion, imports, declarations⟩) <$>
      ownClass .model fields <*> required (.single "namespace") checkString fields <*>
      optional ⟨"sourceUri", "source_uri"⟩ checkString fields <*>
      optional ⟨"concertoVersion", "concerto_version"⟩ checkString fields <*>
      defaulted (.single "imports") [] (checkList checkImport) fields <*>
      defaulted (.single "declarations") [] (checkList checkDeclaration) fields

/-- Several models. -/
def checkModels : Json → Checked (List Model) :=
  checkNode .models fun fields =>
    (fun _ models => models) <$>
      ownClass .models fields <*>
      defaulted (.single "models") [] (checkList checkModel) fields

end Concerto
