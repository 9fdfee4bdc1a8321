import Concerto.Json.Value
import Concerto.Schema.Class

/-!
The JSON form of models and their nodes. The fields of a node have a fixed order, and a field
without a value is left out.

* `Model.toJson`, `Json.ofModels`: the form of a model and of several;
* `Declaration.toJson`, `Property.toJson`, `Decorator.toJson`: the forms of their nodes.
-/

namespace Concerto

/-- A field that is always there. -/
def presentField (key : String) (value : Json) : List (String × Json) := [(key, value)]

/-- A field that is there if it has a value. -/
def optionalField {α : Type} (key : String) (encode : α → Json) : Option α → List (String × Json)
  | some a => [(key, encode a)]
  | none => []

/-- The field that names the class. -/
def classField (c : NodeClass) : List (String × Json) := presentField "$class" (.string c.tag)

/-- The form of a list. -/
def jsonList {α : Type} (encode : α → Json) (as : List α) : Json := .array (as.map encode)

/-- The form of a point in a source text. -/
def Position.toJson (p : Position) : Json :=
  .object (classField .position ++ presentField "line" (.int p.line) ++
    presentField "column" (.int p.column) ++ presentField "offset" (.int p.offset))

/-- The form of a part of a source text. -/
def Location.toJson (l : Location) : Json :=
  .object (classField .range ++ presentField "start" l.start.toJson ++
    presentField "end" l.stop.toJson ++ optionalField "source" .string l.source)

/-- The form of a reference. -/
def Reference.toJson (r : Reference) : Json :=
  .object (classField .typeIdentifier ++ presentField "name" (.string r.name) ++
    optionalField "namespace" .string r.ns)

/-- The form of an argument of a decorator. -/
def DecoratorArgument.toJson (a : DecoratorArgument) : Json :=
  .object (classField a.nodeClass ++
    match a with
    | .string value location =>
      presentField "value" (.string value) ++ optionalField "location" Location.toJson location
    | .number value location =>
      presentField "value" (.double value) ++ optionalField "location" Location.toJson location
    | .boolean value location =>
      presentField "value" (.bool value) ++ optionalField "location" Location.toJson location
    | .type ref isArray location =>
      presentField "type" ref.toJson ++ presentField "isArray" (.bool isArray) ++
        optionalField "location" Location.toJson location)

/-- The form of a decorator. -/
def Decorator.toJson (d : Decorator) : Json :=
  .object (classField .decorator ++ presentField "name" (.string d.name) ++
    optionalField "arguments" (jsonList DecoratorArgument.toJson) d.arguments ++
    optionalField "location" Location.toJson d.location)

/-- The fields that a declaration, a property or a value begins with. -/
def Header.fields (h : Header) : List (String × Json) :=
  presentField "name" (.string h.name) ++
    optionalField "decorators" (jsonList Decorator.toJson) h.decorators ++
    optionalField "location" Location.toJson h.location

/-- The form of a pattern. -/
def StringPattern.toJson (p : StringPattern) : Json :=
  .object (classField .stringRegexValidator ++ presentField "pattern" (.string p.pattern) ++
    presentField "flags" (.string p.flags))

/-- The form of bounds, which depends on the class of the numbers. -/
def Bounds.toJson {α : Type} (c : NodeClass) (number : α → Json) (b : Bounds α) : Json :=
  .object (classField c ++ optionalField "lower" number b.lower ++
    optionalField "upper" number b.upper)

/-- The fields that only a property of the kind has. -/
def PropertyKind.fields : PropertyKind → List (String × Json)
  | object type default =>
    presentField "type" type.toJson ++ optionalField "defaultValue" .string default
  | relationship type => presentField "type" type.toJson
  | boolean default => optionalField "defaultValue" .bool default
  | dateTime => []
  | string default pattern =>
    optionalField "defaultValue" .string default ++
      optionalField "validator" StringPattern.toJson pattern
  | double default bounds =>
    optionalField "defaultValue" .double default ++
      optionalField "validator" (Bounds.toJson .doubleDomainValidator .double) bounds
  | integer default bounds =>
    optionalField "defaultValue" .int default ++
      optionalField "validator" (Bounds.toJson .integerDomainValidator .int) bounds
  | long default bounds =>
    optionalField "defaultValue" .int default ++
      optionalField "validator" (Bounds.toJson .longDomainValidator .int) bounds

/-- The form of a property. -/
def Property.toJson (p : Property) : Json :=
  .object (p.header.fields ++ presentField "isArray" (.bool p.isArray) ++
    presentField "isOptional" (.bool p.isOptional) ++ classField p.kind.nodeClass ++ p.kind.fields)

/-- The form of a value of an enumeration. -/
def Header.toJson (h : Header) : Json := .object (h.fields ++ classField .enumProperty)

/-- The form of the identification of a concept. -/
def Identification.toJson : Identification → Json
  | system => .object (classField .identified)
  | byProperty name => .object (classField .identifiedBy ++ presentField "name" (.string name))

/-- The form of a concept. -/
def Concept.toJson (c : Concept) : Json :=
  .object (c.header.fields ++ classField (.concept c.kind) ++
    presentField "isAbstract" (.bool c.isAbstract) ++
    optionalField "identified" Identification.toJson c.identified ++
    optionalField "superType" Reference.toJson c.superType ++
    presentField "properties" (jsonList Property.toJson c.properties))

/-- The form of an enumeration. -/
def Enumeration.toJson (e : Enumeration) : Json :=
  .object (e.header.fields ++ classField .enumDeclaration ++
    presentField "properties" (jsonList Header.toJson e.values))

/-- The form of a declaration. -/
def Declaration.toJson : Declaration → Json
  | concept c => c.toJson
  | enumeration e => e.toJson

/-- The form of an import. -/
def Import.toJson : Import → Json
  | all ns uri =>
    .object (classField .importAll ++ presentField "namespace" (.string ns) ++
      optionalField "uri" .string uri)
  | type ns name uri =>
    .object (classField .importType ++ presentField "namespace" (.string ns) ++
      presentField "name" (.string name) ++ optionalField "uri" .string uri)

/-- The form of a model. -/
def Model.toJson (m : Model) : Json :=
  .object (classField .model ++ presentField "namespace" (.string m.ns) ++
    optionalField "sourceUri" .string m.sourceUri ++
    optionalField "concertoVersion" .string m.concertoVersion ++
    presentField "imports" (jsonList Import.toJson m.imports) ++
    presentField "declarations" (jsonList Declaration.toJson m.declarations))

/-- The form of several models. -/
def Json.ofModels (models : List Model) : Json :=
  .object (classField .models ++ presentField "models" (jsonList Model.toJson models))

end Concerto
