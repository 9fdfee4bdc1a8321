import Concerto.Schema.Checked

/-!
The fields of an object, by which its node is checked.

* `FieldName`: the two spellings of a field's name;
* `NodeClass.fieldNames`: the fields of a class;
* `required`, `optional`, `defaulted`: the value of a field that has to be there, may be there or
  null, or stands for a default;
* `checkNode`: an object of a class, with no other keys than its fields;
* `checkTagged`: an object of one of some classes, which its tag names.
-/

namespace Concerto

/-- The fields of an object. -/
abbrev Fields := List (String × Json)

/-- A field is known under two spellings, of which the first one counts if both are used. -/
structure FieldName where
  json : String
  plain : String
  deriving DecidableEq, Repr

namespace FieldName

/-- A name that is spelled in one way. -/
def single (name : String) : FieldName := ⟨name, name⟩

/-- The class of a node. -/
def class' : FieldName := ⟨"$class", "class_"⟩

/-- The spelling that an object uses for the field. -/
def keyIn? (f : FieldName) (fields : Fields) : Option String :=
  if (fields.lookup f.json).isSome then some f.json
  else if (fields.lookup f.plain).isSome then some f.plain
  else none

/-- The key and the value of the field in an object. -/
def find? (f : FieldName) (fields : Fields) : Option (String × Json) :=
  match fields.lookup f.json with
  | some value => some (f.json, value)
  | none => (fields.lookup f.plain).map (f.plain, ·)

end FieldName

namespace NodeClass

/-- The fields that declarations, properties and enum values begin with. -/
def headerFields : List FieldName := [.single "name", .single "decorators", .single "location"]

/-- The fields that every property has. -/
def propertyFields : List FieldName :=
  headerFields ++ [⟨"isArray", "is_array"⟩, ⟨"isOptional", "is_optional"⟩, .class']

/-- The default of a property. -/
def defaultField : FieldName := ⟨"defaultValue", "default_value"⟩

/-- The fields of a class. -/
def fieldNames : NodeClass → List FieldName
  | position => [.class', .single "line", .single "column", .single "offset"]
  | range => [.class', .single "start", .single "end", .single "source"]
  | typeIdentifier => [.class', .single "name", .single "namespace"]
  | decoratorString | decoratorNumber | decoratorBoolean =>
    [.class', .single "value", .single "location"]
  | decoratorTypeReference =>
    [.class', .single "type", ⟨"isArray", "is_array"⟩, .single "location"]
  | decorator => [.class', .single "name", .single "arguments", .single "location"]
  | identified => [.class']
  | identifiedBy => [.class', .single "name"]
  | stringRegexValidator => [.class', .single "pattern", .single "flags"]
  | doubleDomainValidator | integerDomainValidator | longDomainValidator =>
    [.class', .single "lower", .single "upper"]
  | objectProperty => propertyFields ++ [.single "type", defaultField]
  | relationshipProperty => propertyFields ++ [.single "type"]
  | booleanProperty => propertyFields ++ [defaultField]
  | dateTimeProperty => propertyFields
  | stringProperty | doubleProperty | integerProperty | longProperty =>
    propertyFields ++ [defaultField, .single "validator"]
  | enumProperty => headerFields ++ [.class']
  | enumDeclaration => headerFields ++ [.class', .single "properties"]
  | concept _ =>
    headerFields ++ [.class', ⟨"isAbstract", "is_abstract"⟩, .single "identified",
      ⟨"superType", "super_type"⟩, .single "properties"]
  | importAll => [.class', .single "namespace", .single "uri"]
  | importType => [.class', .single "namespace", .single "name", .single "uri"]
  | model =>
    [.class', .single "namespace", ⟨"sourceUri", "source_uri"⟩,
      ⟨"concertoVersion", "concerto_version"⟩, .single "imports", .single "declarations"]
  | models => [.class', .single "models"]

end NodeClass

/-! ### Single fields -/

section
variable {α : Type}

/-- The value of a field that has to be there. -/
def required (f : FieldName) (check : Json → Checked α) (fields : Fields) : Checked α :=
  match f.find? fields with
  | some (key, value) => (check value).within key
  | none => .bad [⟨[f.json], .missing⟩]

/-- The value of a field that stands for a default where it is not there. -/
def defaulted (f : FieldName) (default : α) (check : Json → Checked α) (fields : Fields) :
    Checked α :=
  match f.find? fields with
  | some (key, value) => (check value).within key
  | none => .ok default

/-- The value of a field that may be missing or null. -/
def optional (f : FieldName) (check : Json → Checked α) (fields : Fields) :
    Checked (Option α) :=
  match f.find? fields with
  | some (_, .null) => .ok none
  | some (key, value) => some <$> (check value).within key
  | none => .ok none

/-- The class that a node names, if it names one, is its own. -/
def ownClass (c : NodeClass) (fields : Fields) : Checked Unit :=
  defaulted .class' () (fun
    | .string tag => if tag = c.tag then .ok () else .problem (.wrongClass c)
    | _ => .problem (.wrongClass c)) fields

/-! ### Nodes -/

/-- The keys of an object that are none of its fields, in their order. -/
def unknownKeys (c : NodeClass) (fields : Fields) : List Violation :=
  let known := c.fieldNames.filterMap (·.keyIn? fields)
  (fields.filter fun field => !known.contains field.1).map fun field => ⟨[field.1], .unknownKey⟩

/-- An object of a class: its fields in their order, and then any other keys. -/
def checkNode (c : NodeClass) (build : Fields → Checked α) : Json → Checked α
  | .object fields => (build fields).andThen (unknownKeys c fields)
  | _ => .problem (.notNode c)

/-- The value that tells the class of an object apart from others. -/
def tagOf? (fields : Fields) : Option Json :=
  match fields.lookup FieldName.class'.plain with
  | some value => some value
  | none => fields.lookup FieldName.class'.json

/-- An object of one of some classes. -/
def checkTagged (cases : List (NodeClass × (Json → Checked α))) : Json → Checked α
  | .object fields =>
    match tagOf? fields with
    | none => .problem .noTag
    | some tag =>
      let found := cases.find? fun c =>
        match tag with
        | .string s => s = c.1.tag
        | _ => false
      match found with
      | some (c, check) => (check (.object fields)).within c.tag
      | none => .problem (.unknownTag tag.shown (cases.map (·.1)))
  | _ => .problem .notTagged

end

end Concerto
