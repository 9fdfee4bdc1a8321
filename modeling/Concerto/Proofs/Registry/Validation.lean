import Concerto.Proofs.Registry.Integrity
import Concerto.Proofs.Schema.Accepted

/-!
Validation is only a check.

* `Registry.exportModel_of_wellNamed`: a well named model is exported as it is, checked or not;
* `Registry.validation_only_checks`: so nothing becomes of a model that has been made of a JSON value
  when it is checked once more, and the checked form of a document is its own checked form.

What a check may change of a JSON value, it has changed when a model has been made of the value: other
spellings of keys, numbers and truth values that stand as texts, defaults that are missing.
-/

namespace Concerto

namespace Registry

/-- A well named model is exported as it is, whether it is checked before or not. -/
lemma exportModel_of_wellNamed {file : ModelFile} (hnamed : file.model.WellNamed)
    (validate : Bool) : exportModel file validate = .ok file.model :=
  Model.validatedIf_eq_ok.mpr ⟨rfl, fun _ => hnamed⟩

/-- A model that has been made of a JSON value is accepted as it is: it is exported and resolved in the
same way with a check and without one, to the same model or with the same error, whatever the registry
and the settings. Of any JSON value, the checked form is its own checked form. -/
theorem validation_only_checks {value : Json} {m : Model} (h : Model.ofJson value = .ok m) :
    m.validated = .ok m ∧
    (∀ file : ModelFile, file.model = m →
      exportModel file true = .ok m ∧ exportModel file false = .ok m) ∧
    (∀ (r : Registry) (s : Settings), r.resolveModel s true m = r.resolveModel s false m) ∧
    Artifact.canonical m.toJson = .ok m.toJson ∧
    ∀ value' form, Artifact.canonical value' = .ok form → Artifact.canonical form = .ok form := by
  have hnamed : m.WellNamed := Model.wellNamed_of_ofJson h
  refine ⟨Model.validated_eq_ok.mpr ⟨rfl, hnamed⟩, ?_, fun r s => ?_, ?_, ?_⟩
  · rintro file rfl
    exact ⟨exportModel_of_wellNamed hnamed true, exportModel_of_wellNamed hnamed false⟩
  · calc r.resolveModel s true m
        = (r.resolve s m).mapError .resolution := resolveModel_eq_of_wellNamed hnamed true
      _ = r.resolveModel s false m := (resolveModel_eq_of_wellNamed hnamed false).symm
  · have hform : Artifact.ofJson (Artifact.model m).toJson = .ok (.model m) :=
      Artifact.ofJson_eq_ok.mpr ⟨rfl, List.forall_mem_singleton.mpr hnamed⟩
    exact map_eq_ok.mpr ⟨_, hform, rfl⟩
  · exact fun _ _ => Artifact.canonical_canonical

/-- A JSON form with keys in their other spelling, numbers and truth values that stand for each other
or as texts, bounds that are no finite numbers, and fields that are null or missing. -/
def looseForm : Json :=
  .object [("namespace", .string "a"), ("source_uri", .null), ("declarations", .array [
    .object [("$class", .string "concerto.metamodel.AssetDeclaration"), ("name", .string "A"),
      ("is_abstract", .int 1), ("decorators", .array []), ("properties", .array [
        .object [("class_", .string "concerto.metamodel.IntegerProperty"), ("name", .string "i"),
          ("default_value", .string " 1.0 "), ("is_array", .string "no")],
        .object [("$class", .string "concerto.metamodel.DoubleProperty"), ("name", .string "d"),
          ("validator", .object [("lower", .double .nan), ("upper", .string "inf")]),
          ("defaultValue", .bool true)]])]])]

/-- The model that it is the form of. -/
def looseModel : Model where
  ns := "a"
  sourceUri := none
  concertoVersion := none
  imports := []
  declarations :=
    [.concept
      { kind := .asset
        header := ⟨"A", some [], none⟩
        isAbstract := true
        identified := none
        superType := none
        properties := [⟨⟨"i", none, none⟩, false, false, .integer (some 1) none⟩,
          ⟨⟨"d", none, none⟩, false, false,
            .double (some (.ofInt 1)) (some ⟨some .nan, some (.infinite false)⟩)⟩] }]

theorem validation_only_checks_loose :
    Model.ofJson looseForm = .ok looseModel ∧ looseModel.validated = .ok looseModel ∧
      exportModel ⟨looseModel, none, none⟩ true = .ok looseModel ∧
      (empty .standard).resolveModel .standard true looseModel =
        (empty .standard).resolveModel .standard false looseModel ∧
      Artifact.canonical looseModel.toJson = .ok looseModel.toJson := by
  have hof : Model.ofJson looseForm = .ok looseModel := by decide +kernel
  obtain ⟨hvalid, hexport, hresolve, hform, -⟩ := validation_only_checks hof
  exact ⟨hof, hvalid, (hexport _ rfl).1, hresolve _ _, hform⟩

end Registry

end Concerto
