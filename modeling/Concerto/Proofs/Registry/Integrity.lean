import Concerto.Proofs.Registry.Reached
import Concerto.Proofs.Resolve.Resolution
import Concerto.Registry.Exchange

/-!
The references of models that are exported together.

* `Registry.exportAll_eq_ok`, `Registry.resolve_eq_ok`: what is exported of every model;
* `Declares`, `Import.Covers`, `Model.Knows`: what a name in one of several models may stand for;
* `Registry.knows_of_exportAll`: every reference in a resolved export has a namespace that its model
  knows its name by.
-/

namespace Concerto

/-! ### Exports -/

lemma validatedIf_models_eq_ok {validate : Bool} {models models' : List Model} :
    (if validate then (validatedModels models).mapError RegistryError.structural
      else pure models) = .ok models' ↔
      models' = models ∧ (validate = true → ∀ m ∈ models, m.WellNamed) := by
  cases validate with
  | false => simp [pure, Except.pure, eq_comm]
  | true => simp [mapError_eq_ok, validatedModels_eq_ok]

namespace Registry

variable {r : Registry} {s : Settings}

/-- A model is resolved if it has a table that knows all its references. -/
lemma resolve_eq_ok {m m' : Model} : r.resolve s m = .ok m' ↔
    ∃ t, NameTable.build r s m = .ok t ∧
      (∀ ref ∈ m.references s.resolveEnumValueDecorators,
        ∃ ns, t.namespaceOf? ref.name = some ns) ∧
      m' = m.mapReferences s.resolveEnumValueDecorators t.assign := by
  simp only [resolve, bind_eq_ok, Model.resolveNames_eq_ok]

/-- A model is resolved after a check if it is well named and can be resolved without one. -/
lemma resolveModel_eq_ok {validate : Bool} {m m' : Model} :
    r.resolveModel s validate m = .ok m' ↔
      (validate = true → m.WellNamed) ∧ r.resolve s m = .ok m' := by
  simp only [resolveModel, bind_eq_ok, Model.validatedIf_eq_ok, mapError_eq_ok]
  constructor
  · rintro ⟨_, ⟨rfl, hnamed⟩, hresolve⟩
    exact ⟨hnamed, hresolve⟩
  · rintro ⟨hnamed, hresolve⟩
    exact ⟨m, ⟨rfl, hnamed⟩, hresolve⟩

/-- A well named model is resolved in the same way whether it is checked before or not. -/
lemma resolveModel_eq_of_wellNamed {m : Model} (hnamed : m.WellNamed) (validate : Bool) :
    r.resolveModel s validate m = (r.resolve s m).mapError .resolution := by
  have haccepted : m.validatedIf validate = .ok m :=
    Model.validatedIf_eq_ok.mpr ⟨rfl, fun _ => hnamed⟩
  rw [resolveModel, haccepted]
  rfl

/-- Registries that resolve a model in the same way do so after a check too. -/
lemma resolveModel_congr {r' : Registry} {m : Model} (h : r.resolve s m = r'.resolve s m)
    (validate : Bool) : r.resolveModel s validate m = r'.resolveModel s validate m := by
  rw [resolveModel, resolveModel]
  cases hvalid : m.validatedIf validate with
  | error e => rfl
  | ok m' =>
      obtain ⟨rfl, -⟩ := Model.validatedIf_eq_ok.mp hvalid
      exact congrArg (Except.mapError RegistryError.resolution) h

/-- The export has a model for each in the registry. -/
lemma exportAll_eq_ok {resolveNames validate : Bool} {models : List Model} :
    r.exportAll s resolveNames validate = .ok models ↔
      List.Forall₂ (fun file m => r.exportedModel s resolveNames file.model = .ok m)
        r.modelFiles models ∧ (validate = true → ∀ m ∈ models, m.WellNamed) := by
  simp only [exportAll, bind_eq_ok, mapM_eq_ok]
  constructor
  · rintro ⟨models', hfiles, hvalid⟩
    obtain ⟨rfl, hnamed⟩ := validatedIf_models_eq_ok.mp hvalid
    exact ⟨hfiles, hnamed⟩
  · rintro ⟨hfiles, hnamed⟩
    exact ⟨models, hfiles, validatedIf_models_eq_ok.mpr ⟨rfl, hnamed⟩⟩

lemma exportedModel_eq_ok {m m' : Model} :
    r.exportedModel s true m = .ok m' ↔ r.resolve s m = .ok m' := by
  simp [exportedModel, resolveModel_eq_ok]

end Registry

/-! ### Names -/

/-- Some of the models is of the namespace and declares the name. -/
def Declares (models : List Model) (ns name : String) : Prop :=
  ∃ m ∈ models, m.ns = ns ∧ name ∈ m.declarationNames

/-- The import makes known that the namespace declares the name: it names it, or it is of the whole
namespace, which declares it. -/
def Import.Covers (models : List Model) (ns name : String) : Import → Prop
  | all ns' _ => ns' = ns ∧ Declares models ns name
  | type ns' name' _ => ns' = ns ∧ name' = name

/-- What a name in a model may stand for, among other models. -/
inductive Model.Knows (s : Settings) (models : List Model) (m : Model) (name : String) :
    String → Prop where
  /-- A base declaration, if the model neither declares nor imports the name. -/
  | base (hbase : name ∈ baseKeys s) (hlocal : name ∉ m.declarationNames)
    (himports : ∀ i ∈ m.imports, ∀ ns, ¬ i.Covers models ns name) :
    Knows s models m name s.builtinNamespace
  /-- A declaration of the namespace of the model itself or of an import. -/
  | declared {ns : String} (hdeclared : Declares models ns name)
    (himported : ns = m.ns ∨ ∃ i ∈ m.imports, i.Covers models ns name) :
    Knows s models m name ns

namespace Registry

variable {r : Registry} {s : Settings} {models : List Model}

/-- The resolved models declare what the models in the registry declare. -/
lemma declares_iff (h : r.WellKept)
    (hmodels : List.Forall₂ (fun file m => r.exportedModel s true file.model = .ok m)
      r.modelFiles models) {ns name : String} :
    Declares models ns name ↔ r.hasDeclaration ns name = true := by
  have hkept : List.Forall₂ (fun file m => Model.ns m = file.model.ns ∧
      m.declarationNames = file.model.declarationNames) r.modelFiles models := by
    refine hmodels.imp fun file m hm => ?_
    obtain ⟨t, -, -, rfl⟩ := resolve_eq_ok.mp (exportedModel_eq_ok.mp hm)
    exact ⟨rfl, by simp⟩
  rw [h.hasDeclaration_iff]
  constructor
  · rintro ⟨m, hm, rfl, hname⟩
    obtain ⟨file, hfile, hns, hnames⟩ := exists_of_forall₂_right hkept m hm
    exact ⟨file, hfile, hns.symm, hnames ▸ hname⟩
  · rintro ⟨file, hfile, rfl, hname⟩
    obtain ⟨m, hm, hns, hnames⟩ := exists_of_forall₂_left hkept file hfile
    exact ⟨m, hm, hns, hnames ▸ hname⟩

/-- An import binds a name if and only if it covers it in some namespace. -/
lemma binds_iff {i : Import}
    (hdeclares : ∀ ns name, Declares models ns name ↔ r.hasDeclaration ns name = true)
    {name : String} : i.binds r name = true ↔ i.Covers models i.ns name := by
  cases i with
  | all ns uri => simp [Import.binds, Import.Covers, Import.ns, hdeclares]
  | type ns name' uri => simp [Import.binds, Import.Covers, Import.ns, eq_comm]

/-- A name in the table of a model has a namespace that the model knows it by. -/
lemma knows_of_build {m : Model} {t : NameTable} (hm : m ∈ models)
    (hdeclares : ∀ ns name, Declares models ns name ↔ r.hasDeclaration ns name = true)
    (hbuild : NameTable.build r s m = .ok t) {name ns : String}
    (hns : t.namespaceOf? name = some ns) : ns ≠ "" ∧ m.Knows s models name ns := by
  obtain ⟨htargets, hlookup⟩ := NameTable.lookup?_of_build hbuild
  obtain ⟨hfound, hne⟩ := Option.filter_eq_some_iff.mp hns
  refine ⟨by simpa using hne, ?_⟩
  rw [hlookup] at hfound
  by_cases hlocal : name ∈ m.declarationNames
  · rw [if_pos hlocal, Option.some.injEq] at hfound
    exact .declared ⟨m, hm, hfound, hlocal⟩ (.inl hfound.symm)
  rw [if_neg hlocal] at hfound
  cases hfind : m.imports.reverse.find? (·.binds r name) with
  | some i =>
      have himport : i ∈ m.imports := List.mem_reverse.mp (List.mem_of_find?_eq_some hfind)
      have hcovers := (binds_iff hdeclares).mp (List.find?_some hfind)
      have hns : i.ns = ns := by simpa [hfind] using hfound
      subst hns
      refine .declared ?_ (.inr ⟨i, himport, hcovers⟩)
      cases i with
      | all ns uri => exact hcovers.2
      | type ns name' uri =>
          obtain ⟨-, rfl⟩ := hcovers
          exact (hdeclares _ _).mpr (htargets _ himport)
  | none =>
      rw [hfind, Option.map_none, Option.none_or] at hfound
      by_cases hbase : name ∈ baseKeys s
      · rw [if_pos hbase, Option.some.injEq] at hfound
        subst hfound
        refine .base hbase hlocal fun i himport ns hcovers => ?_
        have hns : i.ns = ns := by cases i <;> exact hcovers.1
        have hbinds := (binds_iff hdeclares).mpr (hns ▸ hcovers)
        exact absurd hbinds (by
          simpa using List.find?_eq_none.mp hfind i (List.mem_reverse.mpr himport))
      · rw [if_neg hbase] at hfound
        cases hfound

/-- The table of a model does not depend on its references. -/
lemma build_mapReferences (r : Registry) (s : Settings) (m : Model) (enumValues : Bool)
    (f : Reference → Reference) :
    NameTable.build r s (m.mapReferences enumValues f) = NameTable.build r s m := by
  rw [NameTable.build, NameTable.build, Model.declarationNames_mapReferences]
  rfl

/-- A model is resolved by the names of its references, whatever namespaces they have. -/
lemma resolve_mapReferences {f : Reference → Reference} (hf : ∀ ref, (f ref).name = ref.name)
    (r : Registry) (s : Settings) (m : Model) :
    r.resolve s (m.mapReferences s.resolveEnumValueDecorators f) = r.resolve s m := by
  rw [resolve, resolve, build_mapReferences]
  exact bind_congr fun t => Model.resolveNames_mapReferences hf s t m

/-- In an export with resolved references, every reference has a namespace that its model knows its
name by: the registry may have been built up by any calls, and the export go by any settings. -/
theorem knows_of_exportAll {settings : Settings} {calls : List AddCall} {validate : Bool}
    (h : ((empty settings).addEach calls).exportAll s true validate = .ok models) :
    ∀ m ∈ models, ∀ ref ∈ m.references s.resolveEnumValueDecorators,
      ∃ ns, ref.ns = some ns ∧ ns ≠ "" ∧ m.Knows s models ref.name ns := by
  have hkept := (wellKept_empty settings).addEach calls
  have hmodels := (exportAll_eq_ok.mp h).1
  have hdeclares : ∀ ns name, Declares models ns name ↔ Registry.hasDeclaration _ ns name = true :=
    fun _ _ => declares_iff hkept hmodels
  intro m hm ref href
  obtain ⟨file, -, hfile⟩ := exists_of_forall₂_right hmodels m hm
  obtain ⟨t, hbuild, hknown, rfl⟩ := resolve_eq_ok.mp (exportedModel_eq_ok.mp hfile)
  rw [Model.references_mapReferences, List.mem_map] at href
  obtain ⟨ref, href, rfl⟩ := href
  obtain ⟨ns, hns⟩ := hknown ref href
  rw [← build_mapReferences] at hbuild
  obtain ⟨hne, hknows⟩ := knows_of_build hm hdeclares hbuild hns
  exact ⟨ns, hns, hne, hknows⟩

/-- A model that imports a declaration, then the model that declares it, then that model again. -/
def importingCalls : List AddCall :=
  [.text "namespace b import a.C @d(E) concept D extends C \x7bo Event e\x7d enum E \x7b@d(C) o F\x7d"
      none false,
    .text "namespace a concept C \x7bo Double x default=0.5\x7d" none true,
    .text "namespace a" none true]

theorem knows_of_exportAll_importing :
    ∃ models, ((empty .standard).addEach importingCalls).exportAll .standard true true = .ok models ∧
      models.flatMap (Model.references true) =
        [⟨"C", some "a"⟩, ⟨"Event", some "concerto"⟩, ⟨"E", some "b"⟩, ⟨"C", some "a"⟩] ∧
      ∀ m ∈ models, ∀ ref ∈ m.references true,
        ∃ ns, ref.ns = some ns ∧ ns ≠ "" ∧ m.Knows .standard models ref.name ns := by
  have hrefs : (((empty .standard).addEach importingCalls).exportAll .standard true true).map
      (fun models => models.flatMap (Model.references true)) =
        .ok [⟨"C", some "a"⟩, ⟨"Event", some "concerto"⟩, ⟨"E", some "b"⟩, ⟨"C", some "a"⟩] := by
    decide +kernel
  obtain ⟨models, hexport, hrefs⟩ := map_eq_ok.mp hrefs
  exact ⟨models, hexport, hrefs, knows_of_exportAll hexport⟩

end Registry

end Concerto
