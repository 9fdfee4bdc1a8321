import Concerto.Proofs.Schema.Nodes
import Concerto.Proofs.Schema.Respelling

/-!
A document whose keys are put in another order and spelled in another way is the same document.

* `allowsRespelling_property`, `allowsRespelling_declaration`, `allowsRespelling_model`: the checks of all
  nodes make the same of a respelled value;
* `Artifact.ofJson_respelled`: so does the check of a document.
-/

namespace Concerto

/-! ### Leaves -/

lemma allowsRespelling_string : AllowsRespelling checkString :=
  .of_leaf (by simp [checkString, Checked.problem]) (by simp [checkString, Checked.problem])

lemma allowsRespelling_boolean : AllowsRespelling checkBoolean :=
  .of_leaf (by simp [checkBoolean, Checked.problem]) (by simp [checkBoolean, Checked.problem])

lemma allowsRespelling_integer : AllowsRespelling checkInteger :=
  .of_leaf (by simp [checkInteger, Checked.problem]) (by simp [checkInteger, Checked.problem])

lemma allowsRespelling_double : AllowsRespelling checkDouble :=
  .of_leaf (by simp [checkDouble, Checked.problem]) (by simp [checkDouble, Checked.problem])

lemma allowsRespelling_identifier : AllowsRespelling checkIdentifier :=
  .of_leaf (by simp [checkIdentifier, checkString, Checked.problem])
    (by simp [checkIdentifier, checkString, Checked.problem])

/-- The class that a node names. -/
lemma allowsMatching_ownClass (c : NodeClass) : AllowsMatching (ownClass c) :=
  AllowsMatching.defaulted (.of_leaf (by simp [Checked.problem]) (by simp [Checked.problem]))
    isKnown_class

lemma allowsRespelling_position : AllowsRespelling checkPosition := by
  refine .node (((((allowsMatching_ownClass _).map _).seq
    (.required allowsRespelling_integer ?_)).seq (.required allowsRespelling_integer ?_)).seq
    (.required allowsRespelling_integer ?_)) <;>
    exact isKnown_of_mem (c := .position) (by decide)

lemma allowsRespelling_location : AllowsRespelling checkLocation := by
  refine .node (((((allowsMatching_ownClass _).map _).seq
    (.required allowsRespelling_position ?_)).seq (.required allowsRespelling_position ?_)).seq
    (.optional allowsRespelling_string ?_)) <;>
    exact isKnown_of_mem (c := .range) (by decide)

lemma allowsRespelling_reference : AllowsRespelling checkReference := by
  refine .node ((((allowsMatching_ownClass _).map _).seq
    (.required allowsRespelling_string ?_)).seq (.optional allowsRespelling_string ?_)) <;>
    exact isKnown_of_mem (c := .typeIdentifier) (by decide)

lemma allowsMatching_locationField : AllowsMatching locationField :=
  .optional allowsRespelling_location (isKnown_of_mem (c := .decorator) (by decide))

/-! ### Decorators -/

lemma allowsRespelling_decoratorArgument : AllowsRespelling checkDecoratorArgument := by
  refine .tagged fun case hcase => ?_
  simp only [List.mem_cons, List.not_mem_nil, or_false] at hcase
  rcases hcase with rfl | rfl | rfl | rfl
  · refine .node ((((allowsMatching_ownClass _).map _).seq
      (.required allowsRespelling_string ?_)).seq allowsMatching_locationField)
    exact isKnown_of_mem (c := .decoratorString) (by decide)
  · refine .node ((((allowsMatching_ownClass _).map _).seq
      (.required allowsRespelling_double ?_)).seq allowsMatching_locationField)
    exact isKnown_of_mem (c := .decoratorNumber) (by decide)
  · refine .node ((((allowsMatching_ownClass _).map _).seq
      (.required allowsRespelling_boolean ?_)).seq allowsMatching_locationField)
    exact isKnown_of_mem (c := .decoratorBoolean) (by decide)
  · refine .node (((((allowsMatching_ownClass _).map _).seq
      (.required allowsRespelling_reference ?_)).seq (.defaulted allowsRespelling_boolean ?_)).seq
      allowsMatching_locationField) <;>
      exact isKnown_of_mem (c := .decoratorTypeReference) (by decide)

lemma allowsRespelling_decorator : AllowsRespelling checkDecorator := by
  refine .node (((((allowsMatching_ownClass _).map _).seq
    (.required allowsRespelling_string ?_)).seq
    (.optional allowsRespelling_decoratorArgument.list ?_)).seq allowsMatching_locationField) <;>
    exact isKnown_of_mem (c := .decorator) (by decide)

/-- The fields that a declaration, a property or a value begins with. -/
lemma allowsMatching_headerOf : AllowsMatching headerOf := by
  refine (((AllowsMatching.required allowsRespelling_identifier ?_).map _).seq
    (.optional allowsRespelling_decorator.list ?_)).seq allowsMatching_locationField <;>
    exact isKnown_of_mem (c := .enumProperty) (by decide)

/-! ### Properties -/

lemma allowsRespelling_stringPattern : AllowsRespelling checkStringPattern := by
  refine .node ((((allowsMatching_ownClass _).map _).seq
    (.required allowsRespelling_string ?_)).seq (.defaulted allowsRespelling_string ?_)) <;>
    exact isKnown_of_mem (c := .stringRegexValidator) (by decide)

lemma allowsRespelling_bounds {α : Type} {c : NodeClass} {number : Json → Checked α}
    (hnumber : AllowsRespelling number) : AllowsRespelling (checkBounds c number) := by
  refine .node ((((allowsMatching_ownClass _).map _).seq (.optional hnumber ?_)).seq
    (.optional hnumber ?_)) <;>
    exact isKnown_of_mem (c := .doubleDomainValidator) (by decide)

/-- The default of a property. -/
lemma allowsMatching_defaultOf {α : Type} {check : Json → Checked α} (h : AllowsRespelling check) :
    AllowsMatching (defaultOf check) :=
  .optional h (isKnown_of_mem (c := .stringProperty) (by decide))

/-- The restriction of a property. -/
lemma allowsMatching_validator {α : Type} {check : Json → Checked α} (h : AllowsRespelling check) :
    AllowsMatching (optional (.single "validator") check) :=
  .optional h (isKnown_of_mem (c := .stringProperty) (by decide))

/-- The type of a property. -/
lemma allowsMatching_type : AllowsMatching (required (.single "type") checkReference) :=
  .required allowsRespelling_reference (isKnown_of_mem (c := .objectProperty) (by decide))

/-- What only the properties of a class have. -/
lemma allowsMatching_kind : ∀ kind ∈ propertyKinds, AllowsMatching kind.2 := by
  simp only [propertyKinds, List.forall_mem_cons]
  refine ⟨?object, ?relationship, ?boolean, ?dateTime, ?string, ?double, ?integer, ?long, by simp⟩
  case object => exact (allowsMatching_type.map _).seq (allowsMatching_defaultOf allowsRespelling_string)
  case relationship => exact allowsMatching_type.map _
  case boolean => exact (allowsMatching_defaultOf allowsRespelling_boolean).map _
  case dateTime => exact .ok _
  case string =>
      exact ((allowsMatching_defaultOf allowsRespelling_string).map _).seq
        (allowsMatching_validator allowsRespelling_stringPattern)
  case double =>
      exact ((allowsMatching_defaultOf allowsRespelling_double).map _).seq
        (allowsMatching_validator (allowsRespelling_bounds allowsRespelling_double))
  case integer =>
      exact ((allowsMatching_defaultOf allowsRespelling_integer).map _).seq
        (allowsMatching_validator (allowsRespelling_bounds allowsRespelling_integer))
  case long =>
      exact ((allowsMatching_defaultOf allowsRespelling_integer).map _).seq
        (allowsMatching_validator (allowsRespelling_bounds allowsRespelling_integer))

lemma allowsRespelling_property : AllowsRespelling checkProperty := by
  refine .tagged fun case hcase => ?_
  obtain ⟨⟨c, kind⟩, hkind, rfl⟩ := List.mem_map.mp hcase
  refine .node (((((allowsMatching_headerOf.map _).seq
    (.defaulted allowsRespelling_boolean ?_)).seq (.defaulted allowsRespelling_boolean ?_)).seq
    (allowsMatching_ownClass c)).seq (allowsMatching_kind _ hkind)) <;>
    exact isKnown_of_mem (c := .dateTimeProperty) (by decide)

lemma allowsRespelling_enumValue : AllowsRespelling checkEnumValue :=
  .node ((allowsMatching_headerOf.map _).seq (allowsMatching_ownClass _))

/-! ### Declarations -/

lemma allowsRespelling_identification : AllowsRespelling checkIdentification := by
  refine .tagged fun case hcase => ?_
  simp only [List.mem_cons, List.not_mem_nil, or_false] at hcase
  rcases hcase with rfl | rfl
  · exact .node ((allowsMatching_ownClass _).map _)
  · refine .node (((allowsMatching_ownClass _).map _).seq (.required allowsRespelling_string ?_))
    exact isKnown_of_mem (c := .identifiedBy) (by decide)

lemma allowsRespelling_concept (kind : ConceptKind) : AllowsRespelling (checkConcept kind) := by
  refine .node ((((((allowsMatching_headerOf.map _).seq (allowsMatching_ownClass _)).seq
    (.defaulted allowsRespelling_boolean ?_)).seq
    (.optional allowsRespelling_identification ?_)).seq
    (.optional allowsRespelling_reference ?_)).seq
    (.defaulted allowsRespelling_property.list ?_)) <;>
    exact isKnown_of_mem (c := .concept .concept) (by decide)

lemma allowsRespelling_enumeration : AllowsRespelling checkEnumeration := by
  refine .node (((allowsMatching_headerOf.map _).seq (allowsMatching_ownClass _)).seq
    (.defaulted allowsRespelling_enumValue.list ?_))
  exact isKnown_of_mem (c := .enumDeclaration) (by decide)

lemma allowsRespelling_declaration : AllowsRespelling checkDeclaration := by
  refine .tagged fun case hcase => ?_
  rcases List.mem_append.mp hcase with hcase | hcase
  · obtain ⟨kind, -, rfl⟩ := List.mem_map.mp hcase
    exact (allowsRespelling_concept kind).map Declaration.concept
  · obtain rfl := List.mem_singleton.mp hcase
    exact allowsRespelling_enumeration.map Declaration.enumeration

/-! ### Models -/

lemma allowsRespelling_import : AllowsRespelling checkImport := by
  refine .tagged fun case hcase => ?_
  simp only [List.mem_cons, List.not_mem_nil, or_false] at hcase
  rcases hcase with rfl | rfl
  · refine .node ((((allowsMatching_ownClass _).map _).seq
      (.required allowsRespelling_string ?_)).seq (.optional allowsRespelling_string ?_)) <;>
      exact isKnown_of_mem (c := .importAll) (by decide)
  · refine .node (((((allowsMatching_ownClass _).map _).seq
      (.required allowsRespelling_string ?_)).seq (.required allowsRespelling_string ?_)).seq
      (.optional allowsRespelling_string ?_)) <;>
      exact isKnown_of_mem (c := .importType) (by decide)

lemma allowsRespelling_model : AllowsRespelling checkModel := by
  refine .node (((((((allowsMatching_ownClass _).map _).seq
    (.required allowsRespelling_string ?_)).seq (.optional allowsRespelling_string ?_)).seq
    (.optional allowsRespelling_string ?_)).seq
    (.defaulted allowsRespelling_import.list ?_)).seq
    (.defaulted allowsRespelling_declaration.list ?_)) <;>
    exact isKnown_of_mem (c := .model) (by decide)

lemma allowsRespelling_models : AllowsRespelling checkModels := by
  refine .node (((allowsMatching_ownClass _).map _).seq (.defaulted allowsRespelling_model.list ?_))
  exact isKnown_of_mem (c := .models) (by decide)

/-- A document of which the keys are in another order and in other spellings, in whatever objects, is
accepted as the same document. -/
theorem Artifact.ofJson_respelled {document respelled : Json} {a : Artifact}
    (h : Respelled document respelled) (ha : ofJson document = .ok a) : ofJson respelled = .ok a := by
  rw [ofJson, Checked.accept_eq_ok] at ha ⊢
  have hallows : AllowsRespelling (checkTagged [(.model, fun v => model <$> checkModel v),
      (.models, fun v => models <$> checkModels v)]) := by
    refine .tagged fun case hcase => ?_
    simp only [List.mem_cons, List.not_mem_nil, or_false] at hcase
    rcases hcase with rfl | rfl
    · exact allowsRespelling_model.map model
    · exact allowsRespelling_models.map models
  exact hallows.eq_ok h ha

/-- A document with an abstract concept. -/
def abstractConceptDocument : Json :=
  .object [("$class", .string "concerto.metamodel.Model"), ("namespace", .string "a"),
    ("sourceUri", .string "a.cto"),
    ("declarations", .array [.object [("$class", .string "concerto.metamodel.ConceptDeclaration"),
      ("name", .string "C"), ("isAbstract", .bool true)]])]

/-- The same document with the keys of both objects the other way round, and in the other spelling where
they have one. -/
def abstractConceptRespelled : Json :=
  .object [("declarations", .array [.object [("is_abstract", .bool true), ("name", .string "C"),
      ("class_", .string "concerto.metamodel.ConceptDeclaration")]]),
    ("source_uri", .string "a.cto"), ("namespace", .string "a"),
    ("class_", .string "concerto.metamodel.Model")]

theorem Artifact.ofJson_respelled_abstractConcept :
    Respelled abstractConceptDocument abstractConceptRespelled ∧
      ∃ a, ofJson abstractConceptDocument = .ok a ∧ ofJson abstractConceptRespelled = .ok a := by
  have hsame : ∀ key, SameField key key := fun _ => .inl rfl
  have hclass : SameField "$class" "class_" :=
    .inr ⟨.identified, .class', by decide, by decide, by decide⟩
  have huri : SameField "sourceUri" "source_uri" :=
    .inr ⟨.model, ⟨"sourceUri", "source_uri"⟩, by decide, by decide, by decide⟩
  have habstract : SameField "isAbstract" "is_abstract" :=
    .inr ⟨.concept .concept, ⟨"isAbstract", "is_abstract"⟩, by decide, by decide, by decide⟩
  -- the keys are written the other way and in the reverse order, inside and outside
  have hconcept : Respelled
      (.object [("$class", .string "concerto.metamodel.ConceptDeclaration"), ("name", .string "C"),
        ("isAbstract", .bool true)])
      (.object [("is_abstract", .bool true), ("name", .string "C"),
        ("class_", .string "concerto.metamodel.ConceptDeclaration")]) :=
    .object (by decide) (.cons ⟨hclass, .string _⟩ (.cons ⟨hsame _, .string _⟩
      (.cons ⟨habstract, .bool _⟩ .nil))) (List.reverse_perm _).symm
  have hrespelled : Respelled abstractConceptDocument abstractConceptRespelled :=
    .object (by decide) (.cons ⟨hclass, .string _⟩ (.cons ⟨hsame _, .string _⟩
      (.cons ⟨huri, .string _⟩ (.cons ⟨hsame _, .array (.cons hconcept .nil)⟩ .nil))))
      (List.reverse_perm _).symm
  have haccepted : ofJson abstractConceptDocument = .ok (.model ⟨"a", some "a.cto", none, [],
      [.concept ⟨.concept, ⟨"C", none, none⟩, true, none, none, []⟩]⟩) := by
    decide +kernel
  exact ⟨hrespelled, _, haccepted, ofJson_respelled hrespelled haccepted⟩

end Concerto
