import Concerto.Proofs.Registry.Exchange
import Concerto.Proofs.Schema.Texts

/-!
Models that have been read conform to the metamodel.

* `Registry.validated_of_accepted`, `Registry.validated_of_checkModel`: a model that a registry
  rejects for its form is one that validation rejects;
* `Registry.exists_of_validate_eq_structural`: a registry fails its check for the form of one of its
  models;
* `Model.validated_of_parse`: a model that has been read is accepted as it is, and neither adding it
  nor checking it ever fails for its form.
-/

namespace Concerto

variable {m : Model}

namespace Registry

variable {r : Registry} {e : StructuralError}

/-- Names that have no declarations are no matter of form. -/
lemma checkNames_ne_structural : r.checkNames m ≠ .error (.structural e) := by
  rw [checkNames, Ne, map_eq_error, mapError_eq_error]
  rintro ⟨_, -, ⟨⟩⟩

/-- A model that fails its check for its form is one that validation rejects. -/
lemma validated_of_checkModel (h : r.checkModel m = .error (.structural e)) :
    m.validated = .error e := by
  rw [checkModel, bind_eq_error, Model.validatedIf_eq_error] at h
  rcases h with ⟨-, e', hrejected, ⟨⟩⟩ | ⟨m', -, hnames⟩
  · exact hrejected
  · exact absurd hnames checkNames_ne_structural

/-- A registry is rejected for the form of one of its models. -/
lemma exists_of_validate_eq_structural (h : r.validate = .error (.structural e)) :
    ∃ file ∈ r.modelFiles, file.model.validated = .error e := by
  obtain ⟨file, hfile, hcheck⟩ := exists_of_forM_eq_error h
  exact ⟨file, hfile, validated_of_checkModel hcheck⟩

/-- A model that is not accepted for its form is one that validation rejects. -/
lemma validated_of_accepted {validate : Bool}
    (h : r.accepted validate m = .error (.structural e)) : m.validated = .error e := by
  rcases accepted_eq_error.mp h with ⟨-, ⟨⟩⟩ | ⟨-, hform | ⟨-, -, hnames⟩⟩
  · obtain ⟨-, e', hrejected, ⟨⟩⟩ := Model.validatedIf_eq_error.mp hform
    exact hrejected
  · exact absurd hnames checkNames_ne_structural

/-- A well named model is not refused for its form. -/
lemma addModel_ne_structural (h : m.WellNamed) (source fileName : Option String)
    (validate : Bool) : r.addModel m source fileName validate ≠ .error (.structural e) := by
  rw [addModel, Ne, map_eq_error]
  intro haccept
  have hvalid : m.validated = .ok m := Model.validated_eq_ok.mpr ⟨rfl, h⟩
  rw [validated_of_accepted haccept] at hvalid
  cases hvalid

/-- A text fails to be read, or its model is well named. -/
lemma addSource_ne_structural (source : String) (fileName : Option String) (validate : Bool) :
    r.addSource source fileName validate ≠ .error (.structural e) := by
  rw [addSource, Ne, bind_eq_error, mapError_eq_error]
  rintro (⟨_, -, ⟨⟩⟩ | ⟨m, hparse, hadd⟩)
  have hnamed := Model.wellNamed_of_parse (mapError_eq_ok.mp hparse)
  exact addModel_ne_structural hnamed _ _ _ hadd

end Registry

/-- A model that has been read from a source text passes validation, which gives it back as it is.
So neither the text nor the model is ever refused for its form, whatever registry it is added to,
and a registry fails its check for the form of a model only if that has not been read. -/
theorem Model.validated_of_parse {source : String} (h : Model.parse source = .ok m) :
    m.validated = .ok m ∧ ∀ (r : Registry) (e : StructuralError),
      (∀ text fileName validate,
        r.addSource text fileName validate ≠ .error (.structural e)) ∧
      (∀ text fileName validate,
        r.addModel m text fileName validate ≠ .error (.structural e)) ∧
      (r.validate = .error (.structural e) → ∃ file ∈ r.modelFiles,
        file.model.validated = .error e ∧ ∀ text, Model.parse text ≠ .ok file.model) := by
  have hnamed := Model.wellNamed_of_parse h
  refine ⟨Model.validated_eq_ok.mpr ⟨rfl, hnamed⟩, fun r e => ⟨?_, ?_, ?_⟩⟩
  · exact Registry.addSource_ne_structural
  · exact Registry.addModel_ne_structural hnamed
  · intro hvalidate
    obtain ⟨file, hfile, hrejected⟩ := Registry.exists_of_validate_eq_structural hvalidate
    refine ⟨file, hfile, hrejected, fun text hparse => ?_⟩
    have haccepted := Model.validated_eq_ok.mpr ⟨rfl, Model.wellNamed_of_parse hparse⟩
    rw [hrejected] at haccepted
    cases haccepted

/-- A model with an enumeration that has a reserved word for a name. -/
def Model.misnamed : Model where
  ns := "b"
  sourceUri := none
  concertoVersion := none
  imports := []
  declarations := [.enumeration ⟨⟨"null", none, none⟩, []⟩]

/-- The violation of the misnamed model. -/
def Model.misnaming : StructuralError :=
  .violations .model [⟨["declarations", "0", "concerto.metamodel.EnumDeclaration", "name"],
    .notIdentifier "null"⟩]

/-- A misnamed model that was added without a check, and a model that has been read. -/
def misnamedCalls : List AddCall :=
  [.tree .misnamed none none false, .text Model.sampleText none false]

theorem Model.validated_of_parse_sample :
    Model.parse sampleText = .ok sample ∧ sample.validated = .ok sample ∧
      (∀ e, ((Registry.empty .standard).addEach misnamedCalls).addModel sample none none true ≠
        .error (.structural e)) ∧
      ((Registry.empty .standard).addEach misnamedCalls).validate = .error (.structural misnaming) ∧
      ∃ file ∈ ((Registry.empty .standard).addEach misnamedCalls).modelFiles,
        file.model.validated = .error misnaming ∧ ∀ text, Model.parse text ≠ .ok file.model := by
  have hparse := Model.parse_sampleText
  have hfail : ((Registry.empty .standard).addEach misnamedCalls).validate =
      .error (.structural misnaming) := by decide +kernel
  obtain ⟨hvalid, hform⟩ := Model.validated_of_parse hparse
  exact ⟨hparse, hvalid, fun e => (hform _ e).2.1 none none true, hfail,
    (hform _ misnaming).2.2 hfail⟩

end Concerto
