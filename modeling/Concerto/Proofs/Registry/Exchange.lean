import Concerto.Proofs.Model.RoundTrip
import Concerto.Proofs.Registry.Integrity

/-!
Registries that are exported and imported.

* `Registry.content`: the namespaces of a registry with their models, which is all that resolution,
  validation and export depend on;
* `addPrinted_eq`: what a registry keeps of models that go by their source texts;
* `Registry.IsTold`, `Registry.isTold_of_exportAll`: models whose source texts denote those of a registry,
  such as its export, and the registry that they make up when they are imported;
* `Registry.importAll_exportAll`: a valid registry that was read from source texts is the same after
  it was exported and imported, and so is its export.
-/

namespace Concerto

/-- The model comes as a source text. -/
def AddCall.IsText : AddCall → Prop
  | text .. => True
  | tree .. => False

/-! ### Contents -/

namespace Registry

/-- The namespaces of a registry with their models. -/
def content (r : Registry) : List (String × Model) :=
  r.files.map fun entry => (entry.1, entry.2.model)

lemma namespaces_eq_content (r : Registry) : r.namespaces = r.content.map Prod.fst := by
  simp [namespaces, content]

lemma models_eq_content (r : Registry) :
    r.modelFiles.map ModelFile.model = r.content.map Prod.snd := by
  simp [modelFiles, content]

lemma file?_eq_content (r : Registry) (ns : String) :
    (r.file? ns).map ModelFile.model = r.content.lookup ns := by
  obtain ⟨settings, files⟩ := r
  simp only [file?, content]
  induction files with
  | nil => rfl
  | cons entry files ih =>
      obtain ⟨key, file⟩ := entry
      by_cases h : ns = key
      · simp [h]
      · simp [List.lookup_cons, beq_eq_false_iff_ne.mpr h, ih]

lemma declarationNames?_eq_content (r : Registry) (ns : String) :
    r.declarationNames? ns = (r.content.lookup ns).map Model.declarationNames := by
  rw [← file?_eq_content, declarationNames?, Option.map_map]
  rfl

/-- In a well kept registry the namespaces are those of the models. -/
lemma WellKept.content_eq {r : Registry} (h : r.WellKept) :
    r.content = r.modelFiles.map fun file => (file.model.ns, file.model) := by
  rw [content, modelFiles, List.map_map]
  exact List.map_congr_left fun entry hentry => by rw [h.keys entry hentry]; rfl

variable {r r' : Registry} {s : Settings}

lemma resolve_congr (h : r.content = r'.content) (m : Model) : r.resolve s m = r'.resolve s m := by
  have hnames : r.declarationNames? = r'.declarationNames? := by
    funext ns
    rw [declarationNames?_eq_content, declarationNames?_eq_content, h]
  rw [resolve, resolve, NameTable.build_congr hnames]

/-- Registries with the same models have the same exports. -/
lemma exportAll_congr (h : r.content = r'.content) (resolveNames validate : Bool) :
    r.exportAll s resolveNames validate = r'.exportAll s resolveNames validate := by
  have hmodel : r.exportedModel s resolveNames = r'.exportedModel s resolveNames := by
    funext m
    simp only [exportedModel, resolveModel, resolve_congr h]
  have hmodels : r.modelFiles.mapM (fun file => r.exportedModel s resolveNames file.model) =
      r'.modelFiles.mapM fun file => r'.exportedModel s resolveNames file.model := by
    have hmap : ∀ q : Registry,
        q.modelFiles.mapM (fun file => r'.exportedModel s resolveNames file.model) =
          (q.content.map Prod.snd).mapM (r'.exportedModel s resolveNames) := by
      intro q
      rw [← models_eq_content, List.mapM_map]
      rfl
    rw [hmodel, hmap r, hmap r', h]
  rw [exportAll, exportAll, hmodels]

/-- A registry is valid if all its models are well named and have all their references resolved. -/
lemma validate_eq_ok : r.validate = .ok () ↔
    ∀ file ∈ r.modelFiles, file.model.WellNamed ∧
      ∃ m, r.resolve r.settings file.model = .ok m := by
  rw [validate, forM_eq_ok]
  refine forall₂_congr fun file _ => ?_
  simp only [checkModel, checkNames, bind_eq_ok, Model.validatedIf_eq_ok, map_eq_ok,
    mapError_eq_ok]
  constructor
  · rintro ⟨_, ⟨rfl, hnamed⟩, m, hm, -⟩
    exact ⟨hnamed trivial, m, hm⟩
  · rintro ⟨hnamed, m, hm⟩
    exact ⟨_, ⟨rfl, fun _ => hnamed⟩, m, hm, trivial⟩

/-- Registries with the same models are checked with the same result. -/
lemma validate_congr (h : r.content = r'.content) (hsettings : r.settings = r'.settings) :
    r.validate = r'.validate := by
  have hcheck : r.checkModel = r'.checkModel := by
    funext m
    simp only [checkModel, checkNames, resolve_congr h, hsettings]
  have hvalidate : ∀ q : Registry, q.validate = (q.content.map Prod.snd).forM q.checkModel := by
    intro q
    rw [← models_eq_content, List.forM_eq_forM, List.forM_map]
    rfl
  rw [hvalidate, hvalidate, h, hcheck]

end Registry

/-! ### Printed models -/

/-- The model file that is kept of a model that goes by its source text. -/
def Model.printedFile (m : Model) : ModelFile := ⟨m.sourceForm, some m.toSource, none⟩

/-- Models that can be told are kept in their order, as far as their source texts tell them. -/
lemma addPrinted_eq {r : Registry} {models : List Model}
    (hparse : ∀ m ∈ models, Model.parse m.toSource = .ok m.sourceForm)
    (hnodup : (r.namespaces ++ models.map Model.ns).Nodup) :
    addPrinted r models =
      .ok { r with files := r.files ++ models.map fun m => (m.ns, m.printedFile) } := by
  induction models generalizing r with
  | nil => simp [addPrinted, pure, Except.pure]
  | cons m models ih =>
      rw [List.forall_mem_cons] at hparse
      rw [List.map_cons, ← List.singleton_append, ← List.append_assoc] at hnodup
      have hns : m.ns ∉ r.namespaces := by
        have hleft := (List.nodup_append.mp hnodup).1
        intro hmem
        exact (List.nodup_append.mp hleft).2.2 m.ns hmem m.ns List.mem_cons_self rfl
      have hadd : r.addSource m.toSource none false = .ok (r.append m.printedFile) :=
        Registry.addSource_eq_ok.mpr
          ⟨m.sourceForm, hparse.1, Registry.addModel_eq_ok.mpr ⟨hns, by simp, rfl⟩⟩
      have hrest := ih (r := r.append m.printedFile) hparse.2 (by
        rw [Registry.namespaces_append]
        exact hnodup)
      rw [addPrinted, List.foldlM_cons, hadd]
      refine hrest.trans ?_
      simp [Registry.append, Model.printedFile, Model.sourceForm]

/-- A property, a value or a declaration is well named if and only if its source form is. -/
lemma Declaration.wellNamed_sourceForm (d : Declaration) :
    d.sourceForm.WellNamed ↔ d.WellNamed := by
  cases d with
  | concept c =>
      have hproperties : (∀ p ∈ c.sourceForm.properties, p.header.WellNamed) ↔
          ∀ p ∈ c.properties, p.header.WellNamed := List.forall_mem_map
      exact ⟨fun h => ⟨h.header, hproperties.mp h.properties⟩,
        fun h => ⟨h.header, hproperties.mpr h.properties⟩⟩
  | enumeration e =>
      have hvalues : (∀ h ∈ e.sourceForm.values, h.WellNamed) ↔
          ∀ h ∈ e.values, h.WellNamed := List.forall_mem_map
      exact ⟨fun h => ⟨h.header, hvalues.mp h.values⟩, fun h => ⟨h.header, hvalues.mpr h.values⟩⟩

lemma Model.wellNamed_sourceForm (m : Model) : m.sourceForm.WellNamed ↔ m.WellNamed := by
  rw [WellNamed, WellNamed, sourceForm, List.forall_mem_map]
  simp only [Declaration.wellNamed_sourceForm]

/-- Changing references leaves the names of declarations, properties and values alone. -/
lemma Model.wellNamed_mapReferences {f : Reference → Reference} (hf : ∀ r, (f r).name = r.name)
    (enumValues : Bool) (m : Model) : (m.mapReferences enumValues f).WellNamed ↔ m.WellNamed := by
  rw [← wellNamed_sourceForm, sourceForm_mapReferences hf, wellNamed_sourceForm]

/-- Models are imported if they can all be added by their source texts, and are valid together. -/
lemma importModels_eq_ok {s : Settings} {models : List Model} {r : Registry} :
    importModels s models = .ok r ↔
      addPrinted (.empty s) models = .ok r ∧ r.validate = .ok () := by
  simp only [importModels, bind_eq_ok]
  constructor
  · rintro ⟨r', hprinted, _, hvalid, hr⟩
    cases hr
    exact ⟨hprinted, hvalid⟩
  · rintro ⟨hprinted, hvalid⟩
    exact ⟨r, hprinted, (), hvalid, rfl⟩

/-- A registry is imported if its models are accepted, can all be added by their source texts, and
are valid together. -/
lemma importAll_eq_ok {s : Settings} {validate : Bool} {models : List Model} {r : Registry} :
    importAll s validate models = .ok r ↔
      (validate = true → ∀ m ∈ models, m.WellNamed) ∧
        addPrinted (.empty s) models = .ok r ∧ r.validate = .ok () := by
  rw [← importModels_eq_ok]
  cases validate with
  | false => simp [importAll, pure, Except.pure, bind, Except.bind]
  | true =>
      simp only [importAll, if_true, bind_eq_ok, mapError_eq_ok, validatedModels_eq_ok]
      constructor
      · rintro ⟨_, ⟨rfl, hnamed⟩, h⟩
        exact ⟨fun _ => hnamed, h⟩
      · rintro ⟨hnamed, h⟩
        exact ⟨models, ⟨rfl, hnamed trivial⟩, h⟩

namespace Registry

variable {r : Registry} {settings : Settings}

/-- Every model has been read from a source text. -/
def IsRead (r : Registry) : Prop :=
  ∀ file ∈ r.modelFiles, ∃ source, Model.parse source = .ok file.model

/-- Models whose source texts denote those of a well kept registry are of the same namespaces. -/
lemma WellKept.content_eq_of_sourceForm (h : r.WellKept) {models : List Model}
    (hmodels : models.map Model.sourceForm = r.modelFiles.map ModelFile.model) :
    models.map (fun m => (m.ns, m.sourceForm)) = r.content := by
  have hpairs : models.map (fun m => (m.ns, m.sourceForm)) =
      (models.map Model.sourceForm).map fun m => (m.ns, m) := by
    rw [List.map_map]
    rfl
  rw [hpairs, hmodels, h.content_eq, List.map_map]
  rfl

/-- Calls with source texts build up a registry of models that have been read. -/
lemma isRead_addEach {calls : List AddCall} (hcalls : ∀ call ∈ calls, call.IsText) :
    ((empty settings).addEach calls).IsRead := by
  refine addEach_induction (P := IsRead) (fun _ hfile => absurd hfile List.not_mem_nil) ?_
  intro call hcall r₁ r₂ h₁ hresult
  cases call with
  | tree => exact (hcalls _ hcall).elim
  | text source fileName validate =>
      obtain ⟨m, hparse, hadd⟩ := addSource_eq_ok.mp hresult
      obtain ⟨-, -, rfl⟩ := addModel_eq_ok.mp hadd
      intro file hfile
      rw [modelFiles_append] at hfile
      rcases List.mem_append.mp hfile with hfile | hfile
      · exact h₁ file hfile
      · rw [List.mem_singleton.mp hfile]
        exact ⟨source, hparse⟩

/-- What is exported of a model that has been read is told by its source text, which denotes the
model. -/
lemma exists_exportedModel (hvalid : r.validate = .ok ()) (hread : r.IsRead)
    (hfinite : ∀ file ∈ r.modelFiles, file.model.IsFinite) (resolveNames : Bool) :
    ∀ file ∈ r.modelFiles, ∃ m, r.exportedModel r.settings resolveNames file.model = .ok m ∧
      m.ns = file.model.ns ∧ m.sourceForm = file.model ∧ m.IsSpellable ∧ m.WellNamed := by
  intro file hfile
  obtain ⟨source, hparse⟩ := hread file hfile
  obtain ⟨hspellable, hsource⟩ := Model.isSpellable_of_parse hparse (hfinite file hfile)
  obtain ⟨hnamed, m, hresolve⟩ := validate_eq_ok.mp hvalid file hfile
  cases resolveNames with
  | false => exact ⟨file.model, rfl, rfl, hsource, hspellable, hnamed⟩
  | true =>
      have hexport := exportedModel_eq_ok.mpr hresolve
      obtain ⟨t, -, -, rfl⟩ := resolve_eq_ok.mp hresolve
      have hform := Model.sourceForm_mapReferences (f := t.assign) (fun _ => rfl)
        r.settings.resolveEnumValueDecorators file.model
      refine ⟨_, hexport, rfl, hform.trans hsource, ?_, ?_⟩
      · rwa [← Model.isSpellable_sourceForm, hform, Model.isSpellable_sourceForm]
      · exact (Model.wellNamed_mapReferences (f := t.assign) (fun _ => rfl) _ _).mpr hnamed

/-! ### Models that tell those of a registry -/

/-- Well named models that can be told, and whose source texts denote the models of a registry. -/
structure IsTold (r : Registry) (models : List Model) : Prop where
  content : models.map (fun m => (m.ns, m.sourceForm)) = r.content
  spellable : ∀ m ∈ models, m.IsSpellable
  wellNamed : ∀ m ∈ models, m.WellNamed

/-- The registry of models that go by their source texts. -/
def printed (s : Settings) (models : List Model) : Registry :=
  ⟨s, models.map fun m => (m.ns, m.printedFile)⟩

@[simp] lemma modelFiles_printed (s : Settings) (models : List Model) :
    (printed s models).modelFiles = models.map Model.printedFile := by
  simp [printed, modelFiles, Function.comp_def]

namespace IsTold

variable {models : List Model} (h : r.IsTold models)

include h

lemma parse_toSource : ∀ m ∈ models, Model.parse m.toSource = .ok m.sourceForm :=
  fun m hm => Model.parse_toSource (h.spellable m hm)

lemma nodup (hkept : r.WellKept) : (models.map Model.ns).Nodup := by
  have hnamespaces : models.map Model.ns = r.namespaces := by
    rw [namespaces_eq_content, ← h.content, List.map_map]
    rfl
  exact hnamespaces ▸ hkept.nodup

/-- Each of the models tells one of the registry. -/
lemma exists_file {m : Model} (hm : m ∈ models) :
    ∃ file ∈ r.modelFiles, m.sourceForm = file.model := by
  have hmem : m.sourceForm ∈ r.content.map Prod.snd := by
    rw [← h.content, List.map_map]
    exact List.mem_map_of_mem hm
  rw [← models_eq_content] at hmem
  obtain ⟨file, hfile, heq⟩ := List.mem_map.mp hmem
  exact ⟨file, hfile, heq.symm⟩

lemma content_printed (s : Settings) : (printed s models).content = r.content := by
  rw [← h.content]
  simp [Registry.content, printed, Model.printedFile, Function.comp_def]

/-- The models are imported if they are valid together. -/
lemma importAll_eq_map (hkept : r.WellKept) (s : Settings) (validate : Bool) :
    importAll s validate models = (printed s models).validate.map fun _ => printed s models := by
  have hprinted : addPrinted (.empty s) models = .ok (printed s models) :=
    addPrinted_eq h.parse_toSource (by simpa using h.nodup hkept)
  have hmodels : importModels s models =
      (printed s models).validate.map fun _ => printed s models := by
    rw [importModels, hprinted]
    cases hvalid : (printed s models).validate <;>
      simp [bind, Except.bind, hvalid, Except.map, pure, Except.pure]
  have haccepted : validatedModels models = .ok models :=
    validatedModels_eq_ok.mpr ⟨rfl, h.wellNamed⟩
  cases validate with
  | false => exact hmodels
  | true =>
      rw [importAll, if_pos rfl, haccepted]
      exact hmodels

end IsTold

section

variable (hvalid : r.validate = .ok ()) (hread : r.IsRead)
  (hfinite : ∀ file ∈ r.modelFiles, file.model.IsFinite)

include hvalid hread hfinite

/-- A valid registry of models that have been read can be exported. -/
lemma exists_exportAll (resolveNames validate : Bool) :
    ∃ models, r.exportAll r.settings resolveNames validate = .ok models := by
  obtain ⟨models, hmodels⟩ := exists_forall₂
    (exists_exportedModel hvalid hread hfinite resolveNames)
  refine ⟨models, exportAll_eq_ok.mpr ⟨hmodels.imp fun _ _ h => h.1, fun _ m hm => ?_⟩⟩
  obtain ⟨_, -, -, -, -, -, hnamed⟩ := exists_of_forall₂_right hmodels m hm
  exact hnamed

/-- Its export tells its models. -/
lemma isTold_of_exportAll (hkept : r.WellKept) {resolveNames validate : Bool} {models : List Model}
    (h : r.exportAll r.settings resolveNames validate = .ok models) : r.IsTold models := by
  have hmodels : List.Forall₂ (fun file m => file ∈ r.modelFiles ∧
      r.exportedModel r.settings resolveNames file.model = .ok m) r.modelFiles models :=
    (List.forall₂_and_left _ _).mpr ⟨fun _ hfile => hfile, (exportAll_eq_ok.mp h).1⟩
  have htold : List.Forall₂ (fun file m => m.sourceForm = file.model ∧ m.IsSpellable ∧ m.WellNamed)
      r.modelFiles models := by
    refine hmodels.imp fun file m ⟨hfile, hm⟩ => ?_
    obtain ⟨m', hm', -, hfacts⟩ :=
      exists_exportedModel hvalid hread hfinite resolveNames file hfile
    rwa [← Except.ok.inj (hm.symm.trans hm')] at hfacts
  refine ⟨?_, fun m hm => ?_, fun m hm => ?_⟩
  · exact hkept.content_eq_of_sourceForm
      (map_eq_map_of_forall₂ (htold.imp fun _ _ h => h.1.symm)).symm
  · obtain ⟨_, -, -, hspellable, -⟩ := exists_of_forall₂_right htold m hm
    exact hspellable
  · obtain ⟨_, -, -, -, hnamed⟩ := exists_of_forall₂_right htold m hm
    exact hnamed

end

/-! ### Round trips -/

/-- A valid registry of models that have been read, with finite doubles only, can be exported, and
the export can be imported. The registry that is imported has the namespaces of the first, and the
same export. -/
theorem importAll_exportAll {calls : List AddCall} (hcalls : ∀ call ∈ calls, call.IsText)
    (hr : r = (empty settings).addEach calls) (hvalid : r.validate = .ok ())
    (hfinite : ∀ file ∈ r.modelFiles, file.model.IsFinite)
    (resolveNames validate validate' : Bool) :
    ∃ models r', r.exportAll settings resolveNames validate = .ok models ∧
      importAll settings validate' models = .ok r' ∧ r'.namespaces = r.namespaces ∧
      r'.exportAll settings resolveNames validate = .ok models := by
  have hkept : r.WellKept := hr ▸ (wellKept_empty settings).addEach calls
  have hread : r.IsRead := hr ▸ isRead_addEach hcalls
  have hsettings : r.settings = settings := by rw [hr, settings_addEach]; rfl
  subst hsettings
  obtain ⟨models, hexport⟩ := exists_exportAll hvalid hread hfinite resolveNames validate
  have htold := isTold_of_exportAll hvalid hread hfinite hkept hexport
  -- The models are printed under their namespaces, and read back as the models of the registry.
  have hsame := htold.content_printed r.settings
  have hvalid' : (printed r.settings models).validate = .ok () :=
    (validate_congr hsame rfl).trans hvalid
  refine ⟨models, printed r.settings models, hexport, ?_, ?_, ?_⟩
  · rw [htold.importAll_eq_map hkept, hvalid']
    rfl
  · rw [namespaces_eq_content, namespaces_eq_content, hsame]
  · rw [exportAll_congr hsame, hexport]

theorem importAll_exportAll_importing :
    (∀ call ∈ importingCalls, call.IsText) ∧
      ((empty .standard).addEach importingCalls).validate = .ok () ∧
      (∀ file ∈ ((empty .standard).addEach importingCalls).modelFiles, file.model.IsFinite) ∧
      ∃ models r', ((empty .standard).addEach importingCalls).exportAll .standard true true =
          .ok models ∧ importAll .standard true models = .ok r' ∧
        r'.namespaces = ((empty .standard).addEach importingCalls).namespaces ∧
        r'.exportAll .standard true true = .ok models := by
  have htext : ∀ call ∈ importingCalls, call.IsText := by simp [importingCalls, AddCall.IsText]
  obtain ⟨hvalid, hfinite⟩ : ((empty .standard).addEach importingCalls).validate = .ok () ∧
      ∀ file ∈ ((empty .standard).addEach importingCalls).modelFiles, file.model.IsFinite := by
    decide +kernel
  exact ⟨htext, hvalid, hfinite, importAll_exportAll htext rfl hvalid hfinite true true true⟩

end Registry

end Concerto
