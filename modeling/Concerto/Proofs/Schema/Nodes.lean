import Concerto.Proofs.Schema.Codec
import Concerto.Schema.Artifact

/-!
The JSON form of a model is accepted if and only if the model is well named, and gives the model
back.

* `Model.WellNamed`: the names of declarations, properties and values are identifiers;
* `codes_model`, `codes_declaration`, `codes_property`: the check of a node undoes its encoding;
* `Model.validated_eq_ok`, `validatedModels_eq_ok`: validation is the identity on the well named;
* `Artifact.ofJson_eq_ok`: a document is found by the class that its JSON form names.
-/

namespace Concerto

/-! ### Leaves -/

lemma codes_string : Codes checkString .string fun _ => True :=
  fun s => .ok s

lemma codes_boolean : Codes checkBoolean .bool fun _ => True :=
  fun b => .ok b

lemma codes_integer : Codes checkInteger .int fun _ => True :=
  fun i => .ok i

lemma codes_double : Codes checkDouble .double fun _ => True :=
  fun d => .ok d

lemma codes_position : Codes checkPosition Position.toJson fun _ => True := by
  intro p
  refine .congr (gives_node (((((gives_ownClass ?_).map _).seq
    (gives_required codes_integer ?_)).seq (gives_required codes_integer ?_)).seq
    (gives_required codes_integer ?_)) ?_) (by simp) <;>
    simp [classField, FieldName.single, FieldName.class', NodeClass.fieldNames]

lemma codes_location : Codes checkLocation Location.toJson fun _ => True := by
  intro l
  refine .congr (gives_node (((((gives_ownClass ?_).map _).seq
    (gives_required codes_position ?_)).seq (gives_required codes_position ?_)).seq
    (gives_optional codes_string ?_ ?_ ?_)) ?_) (by simp) <;>
    simp +contextual [classField, FieldName.single, FieldName.class', NodeClass.fieldNames]

lemma codes_reference : Codes checkReference Reference.toJson fun _ => True := by
  intro r
  refine .congr (gives_node ((((gives_ownClass ?_).map _).seq (gives_required codes_string ?_)).seq
    (gives_optional codes_string ?_ ?_ ?_)) ?_) (by simp) <;>
    simp +contextual [classField, FieldName.single, FieldName.class', NodeClass.fieldNames]

/-- The location of an encoded node. -/
lemma gives_locationField {fields : Fields} {o : Option Location}
    (hfield : fields.lookup "location" = o.map Location.toJson) :
    (locationField fields).Gives o True :=
  (gives_optional codes_location (fun _ => by simp [Location.toJson]) hfield
    (by rintro rfl; exact hfield)).congr (by simp)

/-! ### Decorators -/

lemma codes_decoratorArgument :
    Codes checkDecoratorArgument DecoratorArgument.toJson fun _ => True := by
  intro a
  cases a with
  | string value location =>
      refine gives_tagged (c := .decoratorString) (.congr (gives_node
        ((((gives_ownClass ?_).map _).seq (gives_required codes_string ?_)).seq
        (gives_locationField ?_)) ?_) (by simp)) ?_ ?_ rfl <;>
        simp [classField, FieldName.single, FieldName.class', NodeClass.fieldNames,
          DecoratorArgument.nodeClass]
  | number value location =>
      refine gives_tagged (c := .decoratorNumber) (.congr (gives_node
        ((((gives_ownClass ?_).map _).seq (gives_required codes_double ?_)).seq
        (gives_locationField ?_)) ?_) (by simp)) ?_ ?_ rfl <;>
        simp [classField, FieldName.single, FieldName.class', NodeClass.fieldNames,
          DecoratorArgument.nodeClass]
  | boolean value location =>
      refine gives_tagged (c := .decoratorBoolean) (.congr (gives_node
        ((((gives_ownClass ?_).map _).seq (gives_required codes_boolean ?_)).seq
        (gives_locationField ?_)) ?_) (by simp)) ?_ ?_ rfl <;>
        simp [classField, FieldName.single, FieldName.class', NodeClass.fieldNames,
          DecoratorArgument.nodeClass]
  | type ref isArray location =>
      refine gives_tagged (c := .decoratorTypeReference) (.congr (gives_node
        (((((gives_ownClass ?_).map _).seq (gives_required codes_reference ?_)).seq
        (gives_defaulted codes_boolean _ ?_)).seq (gives_locationField ?_)) ?_) (by simp)) ?_ ?_
        rfl <;>
        simp [classField, FieldName.single, FieldName.class', NodeClass.fieldNames,
          DecoratorArgument.nodeClass]

lemma codes_decorator : Codes checkDecorator Decorator.toJson fun _ => True := by
  intro d
  refine .congr (gives_node (((((gives_ownClass ?_).map _).seq (gives_required codes_string ?_)).seq
    (gives_optional (codes_list codes_decoratorArgument) ?_ ?_ ?_)).seq
    (gives_locationField ?_)) ?_) (by simp) <;>
    simp +contextual [classField, FieldName.single, FieldName.class', NodeClass.fieldNames,
      jsonList]

/-! ### Headers -/

lemma codes_identifier :
    Codes checkIdentifier .string fun name => isIdentifier name = true := by
  intro name b
  by_cases h : isIdentifier name = true <;>
    simp [checkIdentifier, checkString, h, Checked.problem, eq_comm]

/-- The name may be that of a declaration, a property or a value. -/
def Header.WellNamed (h : Header) : Prop := isIdentifier h.name = true

/-- The fields that a declaration, a property or a value begins with. -/
lemma gives_headerOf {h : Header} {rest : Fields} (hdecorators : rest.lookup "decorators" = none)
    (hlocation : rest.lookup "location" = none) :
    (headerOf (h.fields ++ rest)).Gives h h.WellNamed := by
  have hheader : (headerOf (h.fields ++ rest)).Gives (Header.mk h.name h.decorators h.location) _ :=
    (((gives_required codes_identifier ?_).map Header.mk).seq
      (gives_optional (codes_list codes_decorator) ?_ ?_ ?_)).seq (gives_locationField ?_)
  · exact hheader.congr (by simp [Header.WellNamed])
  all_goals simp +contextual [Header.fields, FieldName.single, jsonList, hdecorators, hlocation]

/-- Other fields come after those that a declaration, a property or a value begins with. -/
lemma lookup_headerFields (h : Header) (rest : Fields) {key : String}
    (hkey : key ∉ ["name", "decorators", "location"]) :
    (h.fields ++ rest).lookup key = rest.lookup key := by
  simp only [List.mem_cons, List.not_mem_nil, or_false, not_or] at hkey
  simp [Header.fields, hkey]

lemma keysIn_header {c : NodeClass} (h : Header)
    (hc : NodeClass.headerFields ⊆ c.fieldNames) : KeysIn c h.fields := by
  have hmem : ∀ key ∈ NodeClass.headerFields.map FieldName.json,
      key ∈ c.fieldNames.map FieldName.json := fun _ hkey => List.map_subset _ hc hkey
  simp only [Header.fields, keysIn_append, keysIn_presentField]
  exact ⟨⟨hmem _ (by decide), keysIn_optionalField (hmem _ (by decide))⟩,
    keysIn_optionalField (hmem _ (by decide))⟩

/-! ### Properties -/

lemma codes_stringPattern : Codes checkStringPattern StringPattern.toJson fun _ => True := by
  intro p
  refine .congr (gives_node ((((gives_ownClass ?_).map _).seq (gives_required codes_string ?_)).seq
    (gives_defaulted codes_string _ ?_)) ?_) (by simp) <;>
    simp [classField, FieldName.single, FieldName.class', NodeClass.fieldNames]

/-- The bounds of a class of numbers. -/
lemma codes_bounds {α : Type} {c : NodeClass} {number : Json → Checked α} {encode : α → Json}
    (hfields : c.fieldNames = [.class', .single "lower", .single "upper"])
    (hnumber : Codes number encode fun _ => True) (hnull : ∀ a, encode a ≠ .null) :
    Codes (checkBounds c number) (Bounds.toJson c encode) fun _ => True := by
  intro b
  refine .congr (gives_node ((((gives_ownClass ?_).map _).seq
    (gives_optional hnumber hnull ?_ ?_)).seq (gives_optional hnumber hnull ?_ ?_)) ?_)
    (by simp) <;>
    simp +contextual [classField, FieldName.single, FieldName.class', hfields]

namespace PropertyKind

/-- What is built of the fields that only a kind of property has. -/
def build : PropertyKind → Fields → Checked PropertyKind
  | object .. => objectKind
  | relationship _ => relationshipKind
  | boolean _ => booleanKind
  | dateTime => dateTimeKind
  | string .. => stringKind
  | double .. => doubleKind
  | integer .. => integerKind
  | long .. => longKind

/-- The keys that only some kinds of property have, in both spellings. -/
def ownKeys : List String := ["type", "defaultValue", "default_value", "validator"]

variable (kind : PropertyKind)

lemma find?_propertyKinds :
    (propertyKinds.map fun c => (c.1, checkPropertyOf c.1 c.2)).find?
        (fun d => kind.nodeClass = d.1) =
      some (kind.nodeClass, checkPropertyOf kind.nodeClass kind.build) := by
  cases kind <;> rfl

lemma propertyFields_subset : NodeClass.propertyFields ⊆ kind.nodeClass.fieldNames := by
  cases kind <;> simp [nodeClass, NodeClass.fieldNames]

lemma keysIn_fields : KeysIn kind.nodeClass kind.fields := by
  cases kind <;> simp [fields, nodeClass, NodeClass.fieldNames, NodeClass.propertyFields,
    NodeClass.headerFields, FieldName.single, NodeClass.defaultField, KeysIn.nil]

lemma lookup_fields {key : String} (h : key ∉ ownKeys) : kind.fields.lookup key = none := by
  simp only [ownKeys, List.mem_cons, List.not_mem_nil, or_false, not_or] at h
  cases kind <;> simp [fields, h]

/-- The fields that only a kind of property has, among others. -/
lemma gives_build {others : Fields}
    (h : ∀ key ∈ ownKeys, others.lookup key = kind.fields.lookup key) :
    (kind.build others).Gives kind True := by
  simp only [ownKeys, List.forall_mem_cons] at h
  obtain ⟨htype, hdefault, hplain, hvalidator, -⟩ := h
  cases kind with
  | object type default =>
      refine .congr (((gives_required codes_reference ?_).map _).seq
        (gives_optional codes_string (by simp) ?_ ?_)) (by simp) <;>
        simp +contextual [fields, FieldName.single, NodeClass.defaultField, *]
  | relationship type =>
      refine .congr ((gives_required codes_reference ?_).map _) (by simp)
      simp [fields, FieldName.single, *]
  | boolean default =>
      refine .congr ((gives_optional codes_boolean (by simp) ?_ ?_).map _) (by simp) <;>
        simp +contextual [fields, NodeClass.defaultField, *]
  | dateTime => exact .ok _
  | string default pattern =>
      refine .congr (((gives_optional codes_string (by simp) ?_ ?_).map _).seq
        (gives_optional codes_stringPattern ?_ ?_ ?_)) (by simp) <;>
        simp +contextual [fields, FieldName.single, NodeClass.defaultField, StringPattern.toJson, *]
  | double default bounds =>
      refine .congr (((gives_optional codes_double (by simp) ?_ ?_).map _).seq
        (gives_optional (codes_bounds rfl codes_double (by simp)) ?_ ?_ ?_)) (by simp) <;>
        simp +contextual [fields, FieldName.single, NodeClass.defaultField, Bounds.toJson, *]
  | integer | long =>
      refine .congr (((gives_optional codes_integer (by simp) ?_ ?_).map _).seq
        (gives_optional (codes_bounds rfl codes_integer (by simp)) ?_ ?_ ?_)) (by simp) <;>
        simp +contextual [fields, FieldName.single, NodeClass.defaultField, Bounds.toJson, *]

end PropertyKind

lemma codes_property : Codes checkProperty Property.toJson fun p => p.header.WellNamed := by
  rintro ⟨header, isArray, isOptional, kind⟩
  -- the fields of a kind are not among the fields that all properties have
  have hnone : ∀ key ∉ PropertyKind.ownKeys, kind.fields.lookup key = none :=
    fun key => kind.lookup_fields
  simp only [PropertyKind.ownKeys] at hnone
  rw [Property.toJson, List.append_assoc, List.append_assoc, List.append_assoc]
  refine gives_tagged (.congr (gives_node ((((((gives_headerOf ?_ ?_).map _).seq
    (gives_defaulted codes_boolean _ ?_)).seq (gives_defaulted codes_boolean _ ?_)).seq
    (gives_ownClass ?_)).seq (kind.gives_build ?_)) ?_) (by simp)) ?_ ?_ kind.find?_propertyKinds
  -- the fields of the kind are found among the others
  case refine_6 =>
      intro key hkey
      simp only [PropertyKind.ownKeys, List.mem_cons, List.not_mem_nil, or_false] at hkey
      rcases hkey with rfl | rfl | rfl | rfl <;> simp [classField, lookup_headerFields]
  -- no key is there that the class does not have
  case refine_7 =>
      have hsub := kind.propertyFields_subset
      have hmem : ∀ key ∈ NodeClass.propertyFields.map FieldName.json,
          key ∈ kind.nodeClass.fieldNames.map FieldName.json :=
        fun _ hkey => List.map_subset _ hsub hkey
      simp only [keysIn_append, keysIn_presentField, classField]
      exact ⟨keysIn_header header fun _ hf => hsub (by simp [NodeClass.propertyFields, hf]),
        hmem _ (by decide), hmem _ (by decide), hmem _ (by decide), kind.keysIn_fields⟩
  all_goals simp [classField, lookup_headerFields, hnone]

/-! ### Declarations -/

lemma codes_enumValue : Codes checkEnumValue Header.toJson Header.WellNamed := by
  intro h
  refine .congr (gives_node (((gives_headerOf ?_ ?_).map _).seq (gives_ownClass ?_)) ?_) (by simp)
  case refine_4 =>
      rw [keysIn_append]
      exact ⟨keysIn_header h (by decide),
        by simp [classField, NodeClass.fieldNames, FieldName.class']⟩
  all_goals simp [classField, lookup_headerFields]

lemma codes_identification : Codes checkIdentification Identification.toJson fun _ => True := by
  intro i
  cases i with
  | system =>
      refine gives_tagged (c := .identified) (.congr (gives_node ((gives_ownClass ?_).map _) ?_)
        (by simp)) ?_ ?_ rfl <;>
        simp [classField, FieldName.class', NodeClass.fieldNames]
  | byProperty name =>
      refine gives_tagged (c := .identifiedBy) (.congr (gives_node (((gives_ownClass ?_).map _).seq
        (gives_required codes_string ?_)) ?_) (by simp)) ?_ ?_ rfl <;>
        simp [classField, FieldName.single, FieldName.class', NodeClass.fieldNames]

/-- The name and the names of the properties may be those of declarations and properties. -/
structure Concept.WellNamed (c : Concept) : Prop where
  header : c.header.WellNamed
  properties : ∀ p ∈ c.properties, p.header.WellNamed

lemma Identification.toJson_ne_null (i : Identification) : i.toJson ≠ .null := by
  cases i <;> simp [toJson]

lemma gives_concept (c : Concept) : (checkConcept c.kind c.toJson).Gives c c.WellNamed := by
  rw [Concept.toJson, List.append_assoc, List.append_assoc, List.append_assoc, List.append_assoc]
  refine .congr (gives_node (((((((gives_headerOf ?_ ?_).map _).seq (gives_ownClass ?_)).seq
    (gives_defaulted codes_boolean _ ?_)).seq
    (gives_optional codes_identification Identification.toJson_ne_null ?_ ?_)).seq
    (gives_optional codes_reference (by simp [Reference.toJson]) ?_ ?_)).seq
    (gives_defaulted (codes_list codes_property) _ ?_)) ?_) ?_
  case refine_10 =>
      rw [keysIn_append]
      exact ⟨keysIn_header c.header fun _ hf => by simp [NodeClass.fieldNames, hf],
        by simp [classField, NodeClass.fieldNames, FieldName.class', FieldName.single]⟩
  case refine_11 =>
      refine ⟨fun h => ⟨h.1.1.1.1.1, h.2⟩, fun h => ?_⟩
      exact ⟨⟨⟨⟨⟨h.header, trivial⟩, trivial⟩, fun _ _ => trivial⟩, fun _ _ => trivial⟩,
        h.properties⟩
  all_goals simp +contextual [classField, FieldName.single, lookup_headerFields]

/-- The name and the names of the values may be those of declarations and values. -/
structure Enumeration.WellNamed (e : Enumeration) : Prop where
  header : e.header.WellNamed
  values : ∀ h ∈ e.values, h.WellNamed

lemma codes_enumeration : Codes checkEnumeration Enumeration.toJson Enumeration.WellNamed := by
  intro e
  rw [Enumeration.toJson, List.append_assoc]
  refine .congr (gives_node ((((gives_headerOf ?_ ?_).map _).seq (gives_ownClass ?_)).seq
    (gives_defaulted (codes_list codes_enumValue) _ ?_)) ?_) ?_
  case refine_5 =>
      rw [keysIn_append]
      exact ⟨keysIn_header e.header fun _ hf => by simp [NodeClass.fieldNames, hf],
        by simp [classField, NodeClass.fieldNames, FieldName.class', FieldName.single]⟩
  case refine_6 => exact ⟨fun h => ⟨h.1.1, h.2⟩, fun h => ⟨⟨h.header, trivial⟩, h.values⟩⟩
  all_goals simp [classField, FieldName.single, lookup_headerFields]

/-- All names that have to be are those of declarations, properties and values. -/
def Declaration.WellNamed : Declaration → Prop
  | concept c => c.WellNamed
  | enumeration e => e.WellNamed

lemma codes_declaration : Codes checkDeclaration Declaration.toJson Declaration.WellNamed := by
  intro d
  cases d with
  | concept c =>
      have hfind : declarationCases.find? (fun d => NodeClass.concept c.kind = d.1) =
          some (.concept c.kind, fun value => .concept <$> checkConcept c.kind value) := by
        cases c.kind <;> rfl
      rw [Declaration.toJson, Concept.toJson, List.append_assoc, List.append_assoc,
        List.append_assoc, List.append_assoc]
      refine gives_tagged ?_ ?_ ?_ hfind
      · show Checked.Gives _ _ c.WellNamed
        simpa [Concept.toJson] using (gives_concept c).map Declaration.concept
      all_goals simp [classField, lookup_headerFields]
  | enumeration e =>
      rw [Declaration.toJson, Enumeration.toJson, List.append_assoc]
      refine gives_tagged (c := .enumDeclaration) ?_ ?_ ?_ rfl
      · show Checked.Gives _ _ e.WellNamed
        simpa [Enumeration.toJson] using (codes_enumeration e).map Declaration.enumeration
      all_goals simp [classField, lookup_headerFields]

/-! ### Models -/

lemma codes_import : Codes checkImport Import.toJson fun _ => True := by
  intro i
  cases i with
  | all ns uri =>
      refine gives_tagged (c := .importAll) (.congr (gives_node ((((gives_ownClass ?_).map _).seq
        (gives_required codes_string ?_)).seq (gives_optional codes_string ?_ ?_ ?_)) ?_)
        (by simp)) ?_ ?_ rfl <;>
        simp +contextual [classField, FieldName.single, FieldName.class', NodeClass.fieldNames]
  | type ns name uri =>
      refine gives_tagged (c := .importType) (.congr (gives_node (((((gives_ownClass ?_).map _).seq
        (gives_required codes_string ?_)).seq (gives_required codes_string ?_)).seq
        (gives_optional codes_string ?_ ?_ ?_)) ?_) (by simp)) ?_ ?_ rfl <;>
        simp +contextual [classField, FieldName.single, FieldName.class', NodeClass.fieldNames]

/-- All names that have to be are those of declarations, properties and values. -/
def Model.WellNamed (m : Model) : Prop := ∀ d ∈ m.declarations, d.WellNamed

lemma codes_model : Codes checkModel Model.toJson Model.WellNamed := by
  intro m
  refine .congr (gives_node (((((((gives_ownClass ?_).map _).seq
    (gives_required codes_string ?_)).seq (gives_optional codes_string ?_ ?_ ?_)).seq
    (gives_optional codes_string ?_ ?_ ?_)).seq
    (gives_defaulted (codes_list codes_import) _ ?_)).seq
    (gives_defaulted (codes_list codes_declaration) _ ?_)) ?_) (by simp [Model.WellNamed]) <;>
    simp +contextual [classField, FieldName.single, FieldName.class', NodeClass.fieldNames]

lemma codes_models :
    Codes checkModels Json.ofModels fun models => ∀ m ∈ models, m.WellNamed := by
  intro models
  refine .congr (gives_node (((gives_ownClass ?_).map _).seq
    (gives_defaulted (codes_list codes_model) _ ?_)) ?_) (by simp) <;>
    simp [classField, FieldName.single, FieldName.class', NodeClass.fieldNames]

/-! ### Validation -/

lemma Checked.accept_eq_ok {α : Type} {subject : Subject} {c : Checked α} {a : α} :
    c.accept subject = .ok a ↔ c = .ok a := by
  cases c <;> simp [accept, toExcept, Except.mapError]

/-- Validation accepts the well named models, and changes none. -/
theorem Model.validated_eq_ok {m m' : Model} : m.validated = .ok m' ↔ m' = m ∧ m.WellNamed := by
  rw [validated, ofJson, Checked.accept_eq_ok, codes_model m m']

/-- Validation accepts several models if and only if all are well named, and changes none. -/
theorem validatedModels_eq_ok {models models' : List Model} :
    validatedModels models = .ok models' ↔ models' = models ∧ ∀ m ∈ models, m.WellNamed := by
  rw [validatedModels, modelsOfJson, Checked.accept_eq_ok, codes_models models models']

lemma codes_artifact : Codes
    (checkTagged [(.model, fun v => .model <$> checkModel v),
      (.models, fun v => .models <$> checkModels v)])
    Artifact.toJson fun a => ∀ m ∈ a.toModels, m.WellNamed := by
  intro a
  cases a with
  | model m =>
      refine gives_tagged (c := .model) (((codes_model m).map Artifact.model).congr ?_) ?_ ?_ rfl
      · exact List.forall_mem_singleton.symm
      all_goals simp [classField]
  | models ms =>
      refine gives_tagged (c := .models) ((codes_models ms).map Artifact.models) ?_ ?_ rfl <;>
        simp [classField]

/-- The JSON form of a document is accepted if and only if its models are well named, and gives the
document back. -/
theorem Artifact.ofJson_eq_ok {a a' : Artifact} :
    ofJson a.toJson = .ok a' ↔ a' = a ∧ ∀ m ∈ a.toModels, m.WellNamed := by
  rw [ofJson, Checked.accept_eq_ok, codes_artifact a a']

end Concerto
