import Concerto.Proofs.Command.Document
import Concerto.Proofs.Registry.Standard

/-!
Models that one command exports to a file, another imports from it, and that are loaded again.

* `HoldsExport`, `holdsExport_of_success`: an export that ends well leaves a document in its file, which
  is read back from there;
* `exists_writeFiles`: models are written into a fresh directory as their source texts;
* `importDocument_of_resolve`, `importDocument_of_not_resolve`: what becomes of such a document when it
  is imported;
* `reloaded_of_exported`: models are loaded again as they were exported, unless settings have kept
  names from being resolved that the import resolves.

The document does not carry the settings of the models, and the import goes by the standard ones.
-/

namespace Concerto

/-! ### Exports of models that have been loaded -/

namespace Registry.IsLoaded

variable {r : Registry} (h : r.IsLoaded)

include h

/-- A model that tells one of the registry has no carriage return in its source text, since the text
that the other one has been read from had none. -/
lemma noReturn_toSource {models : List Model} (htold : r.IsTold models) {m : Model}
    (hm : m ∈ models) : NoReturn m.toSource.toList := by
  obtain ⟨file, hfile, hsource⟩ := htold.exists_file hm
  obtain ⟨source, hreturn, hparse⟩ := h.sources file hfile
  refine Model.noReturn_toSource (htold.spellable m hm) ?_
  rw [← Model.words_sourceForm, hsource]
  exact Model.noReturnPatterns_of_parse hparse hreturn

section

variable (hfinite : ∀ file ∈ r.modelFiles, file.model.IsFinite) {resolveNames validate : Bool}
  {models : List Model} (hexport : r.exportAll r.settings resolveNames validate = .ok models)

include hfinite hexport

lemma isTold : r.IsTold models := isTold_of_exportAll h.valid h.isRead hfinite h.kept hexport

/-- Where the names resolve, the models of an export are valid together under the standard settings. -/
lemma validate_printed (hresolve : r.EnumValuesResolve) :
    (printed .standard models).validate = .ok () := by
  have hcontent := (h.isTold hfinite hexport).content_printed .standard
  exact (validate_standard_iff h.valid h.isRead hfinite hcontent rfl).1.mpr hresolve

end

end Registry.IsLoaded

namespace Command

variable {t t' : FileTree} {p artifact : PathName} {place : List String} {r : Registry}

/-! ### Documents -/

/-- A file holds an export of the registry as a document. -/
def HoldsExport (t : FileTree) (artifact : PathName) (r : Registry) : Prop :=
  ∃ models resolveNames validate bytes, r.exportAll r.settings resolveNames validate = .ok models ∧
    t.readBytes artifact = .ok bytes ∧ Artifact.ofBytes bytes = .ok (.models models)

lemma ofRegistry_ne_success (e : RegistryError) : Ending.ofRegistry e ≠ .success := by
  unfold Ending.ofRegistry
  split <;> simp

/-- An export that ends well has written the models to its file. -/
lemma exists_of_success {resolveNames validate : Bool} (hload : workspace t p = .ok r)
    (h : (exportDirectory t p resolveNames validate (some artifact)).ending = .success) :
    ∃ models, r.exportAll r.settings resolveNames validate = .ok models ∧
      writeDocument t artifact documentLayout (.models models) =
        ((exportDirectory t p resolveNames validate (some artifact)).tree, none) := by
  rw [exportDirectory, hload] at h ⊢
  cases hexport : r.exportAll r.settings resolveNames validate with
  | error e =>
      simp only [hexport] at h
      exact absurd h (ofRegistry_ne_success e)
  | ok models =>
      refine ⟨models, rfl, ?_⟩
      simp only [hexport] at h ⊢
      generalize writeDocument t artifact documentLayout _ = result at h ⊢
      obtain ⟨t', _ | fault⟩ := result
      · rfl
      · cases h

/-- So its file holds the export. -/
lemma holdsExport_of_success {directory output : String} {resolveNames validate : Bool}
    {exported : Outcome} (hload : workspace t (.ofString directory) = .ok r)
    (hfinite : ∀ file ∈ r.modelFiles, file.model.IsFinite)
    (hexport : (Request.exportAll directory resolveNames validate (some output)).run t = exported)
    (hsuccess : exported.ending = .success) : HoldsExport exported.tree (.ofString output) r := by
  subst hexport
  obtain ⟨models, hexport, hwrite⟩ := exists_of_success hload hsuccess
  obtain ⟨text, htext, hbytes⟩ := Artifact.readBytes_of_writeDocument hwrite
  have htold := (isLoaded_of_workspace hload).isTold hfinite hexport
  exact ⟨models, resolveNames, validate, _, hexport, hbytes,
    Artifact.ofBytes_serialize htext htold.wellNamed⟩

/-! ### Files that are written -/

/-- A source text that can be read is not empty, so it is the one that is written. -/
lemma sourceOf_eq {file : ModelFile} {source : String} {m : Model}
    (hsource : file.source = some source) (hparse : Model.parse source = .ok m) :
    sourceOf file = source := by
  have hempty : (Model.parse "").isOk = false := by decide +kernel
  have hne : source ≠ "" := by
    rintro rfl
    rw [hparse] at hempty
    cases hempty
  simp [sourceOf, hsource, Option.filter, hne]

/-- Models of different namespaces are written one after the other into a directory that holds the
source texts of others only. -/
lemma exists_writeFiles (hsettings : r.settings = .standard) (before models : List Model)
    (h : t.IsFolder p place (before.map Model.sourceEntry))
    (hparse : ∀ m ∈ models, Model.parse m.toSource = .ok m.sourceForm)
    (hnodup : ((before ++ models).map Model.ns).Nodup) :
    ∃ t' lines, writeFiles r p t (models.map Model.printedFile) = (t', lines, none) ∧
      t'.IsFolder p place ((before ++ models).map Model.sourceEntry) := by
  -- the directory is known after each file, so that the induction adds to the models before
  induction models generalizing t before with
  | nil => exact ⟨t, "", rfl, by simpa using h⟩
  | cons m models ih =>
      obtain ⟨hm, hparse⟩ := List.forall_mem_cons.mp hparse
      rw [← List.singleton_append, ← List.append_assoc] at hnodup ⊢
      have hnew : (before.map Model.sourceEntry).lookup m.sourceName = none := by
        have hnames := nodup_sourceName hnodup
        rw [List.map_append, List.map_append] at hnames
        have hfree := (List.nodup_append.mp (List.nodup_append.mp hnames).1).2.2
        refine List.lookup_eq_none_iff.mpr (List.forall_mem_map.mpr fun m₀ hm₀ => ?_)
        have hne := hfree _ (List.mem_map_of_mem hm₀) _ (List.mem_singleton_self _)
        simpa [Model.sourceEntry] using hne.symm
      have hpath : modelPath r p m.printedFile = p.below [m.sourceName] := by
        rw [modelPath, hsettings]
        rfl
      obtain ⟨t₁, hwrite, hfolder⟩ :=
        h.exists_writeBytes (m.sourceName_ne (by decide)) hnew m.toSource.toByteArray
      have hfirst : t₁.IsFolder p place ((before ++ [m]).map Model.sourceEntry) := by
        rwa [List.map_append]
      obtain ⟨t', lines, hothers, hall⟩ := ih (before ++ [m]) hfirst hparse hnodup
      refine ⟨t', "Wrote '" ++ (p.below [m.sourceName]).text ++ "'.\n" ++ lines, ?_, hall⟩
      rw [List.singleton_append, List.map_cons, writeFiles, hpath, sourceOf_eq rfl hm,
        FileTree.writeText, hwrite]
      simp only [hothers]

/-! ### Imports of documents -/

section

variable (h : r.IsLoaded) (hfinite : ∀ file ∈ r.modelFiles, file.model.IsFinite)
  (hholds : HoldsExport t artifact r)

include h hfinite hholds

/-- Where the names resolve, the models are imported and written into a fresh directory, and are loaded
from there as they were exported. -/
lemma importDocument_of_resolve (hresolve : r.EnumValuesResolve) {output : PathName}
    (hfresh : t.IsFresh output) (validate : Bool) :
    (importDocument t artifact output validate).ending = .success ∧
      ∃ r', (loadDirectory (importDocument t artifact output validate).tree none output true
          none).toExcept = .ok r' ∧
        ∀ ns, (r'.file? ns).map ModelFile.model = (r.file? ns).map ModelFile.model := by
  obtain ⟨models, resolveNames, validate', bytes, hexport, hbytes, hdocument⟩ := hholds
  -- the models that are read from the document are written, and loaded from their files
  obtain ⟨t', place, hmake, hfolder⟩ := hfresh.exists_isFolder
  have htold := h.isTold hfinite hexport
  have hnodup := htold.nodup h.kept
  have hvalid := h.validate_printed hfinite hexport hresolve
  obtain ⟨t'', lines, hwrite, hfolder'⟩ := exists_writeFiles (r := .printed .standard models) rfl []
    models hfolder htold.parse_toSource hnodup
  have himport : importAll .standard validate models = .ok (.printed .standard models) := by
    rw [htold.importAll_eq_map h.kept, hvalid]
    rfl
  have hrun : ∃ lines events, importDocument t artifact output validate =
      ⟨.success, lines, events, t''⟩ := by
    rw [importDocument, hbytes]
    simp [hdocument, Artifact.toModels, himport, hmake, hwrite]
  obtain ⟨lines, events, hrun⟩ := hrun
  -- the files have the contents of the registry of the import, so they are checked like it
  have hcontent : (Registry.ofFiles .standard (models.map (Model.loadedFile output))).content =
      (Registry.printed .standard models).content := by
    simp [Registry.content, Registry.printed, Registry.ofFiles, Model.loadedFile, Model.printedFile,
      Model.sourceForm]
  obtain ⟨r', hload, hsame⟩ := exists_loadDirectory hfolder' hnodup htold.parse_toSource
    (fun m hm => h.noReturn_toSource htold hm) ((Registry.validate_congr hcontent rfl).trans hvalid)
  rw [hrun]
  refine ⟨rfl, r', hload, fun ns => ?_⟩
  rw [hsame, List.nil_append, htold.content, r.file?_eq_content]

/-- Where they do not, one of the names is reported, and nothing is written. -/
lemma importDocument_of_not_resolve (hresolve : ¬r.EnumValuesResolve) (output : PathName)
    (validate : Bool) :
    (importDocument t artifact output validate).tree = t ∧ ∃ name, r.HasUnseenName name ∧
      (importDocument t artifact output validate).ending =
        .failure ("Name " ++ name ++ " not found") := by
  obtain ⟨models, resolveNames, validate', bytes, hexport, hbytes, hdocument⟩ := hholds
  obtain ⟨-, hok, herror⟩ :=
    Registry.importAll_standard h.valid h.isRead hfinite h.kept hexport validate
  cases himport : importAll .standard validate models with
  | ok r' => exact absurd ((hok r').mp himport).1 hresolve
  | error e =>
      obtain ⟨name, hname, rfl⟩ := herror e himport
      rw [importDocument, hbytes]
      simp only [hdocument, Artifact.toModels, himport]
      exact ⟨rfl, name, hname, rfl⟩

end

/-! ### Exports that are imported -/

/-- An export of models with finite doubles that ends well can be imported into a fresh directory if the
models see what the decorators of their enum values refer to, which they do unless their settings
leave these unresolved. The models are then loaded from that directory as they were loaded for the
export, whatever the settings were. Otherwise the import reports one of these names, and writes
nothing. -/
theorem reloaded_of_exported {directory artifact output : String} {resolveNames validate : Bool}
    {exported : Outcome} (hload : workspace t (.ofString directory) = .ok r)
    (hfinite : ∀ file ∈ r.modelFiles, file.model.IsFinite)
    (hexport : (Request.exportAll directory resolveNames validate (some artifact)).run t = exported)
    (hsuccess : exported.ending = .success) (hfresh : exported.tree.IsFresh (.ofString output))
    (validate' : Bool) {imported : Outcome}
    (himport : (Request.importAll artifact output validate').run exported.tree = imported) :
    (r.settings.resolveEnumValueDecorators = true → r.EnumValuesResolve) ∧
      (imported.ending = .success ↔ r.EnumValuesResolve) ∧
      (imported.ending = .success → ∃ r',
        (loadDirectory imported.tree none (.ofString output) true none).toExcept = .ok r' ∧
          ∀ ns, (r'.file? ns).map ModelFile.model = (r.file? ns).map ModelFile.model) ∧
      (imported.ending ≠ .success → imported.tree = exported.tree ∧ ∃ name, r.HasUnseenName name ∧
        imported.ending = .failure ("Name " ++ name ++ " not found")) := by
  have hloaded := isLoaded_of_workspace hload
  have hholds := holdsExport_of_success hload hfinite hexport hsuccess
  subst himport
  refine ⟨Registry.enumValuesResolve_of_validate hloaded.valid hloaded.isRead hfinite, ?_⟩
  -- what the decorators of enum values refer to is all that the import may not see
  by_cases hresolve : r.EnumValuesResolve
  · obtain ⟨hending, hreload⟩ :=
      importDocument_of_resolve hloaded hfinite hholds hresolve hfresh validate'
    exact ⟨iff_of_true hending hresolve, fun _ => hreload, fun hne => absurd hending hne⟩
  · obtain ⟨htree, name, hname, hending⟩ :=
      importDocument_of_not_resolve hloaded hfinite hholds hresolve (.ofString output) validate'
    have hfailure : Ending.failure ("Name " ++ name ++ " not found") ≠ .success := by simp
    have hne := hending.trans_ne hfailure
    exact ⟨iff_of_false hne hresolve, fun h => (hne h).elim, fun _ => ⟨htree, name, hname, hending⟩⟩

/-- A model with a decorator on an enum value that refers to a name. -/
def decorated (name : String) : Model where
  ns := "a"
  sourceUri := none
  concertoVersion := none
  imports := []
  declarations := [.enumeration ⟨⟨"E", none, none⟩,
    [⟨"A", some [⟨"d", some [.type ⟨name, none⟩ false none], none⟩], none⟩]⟩]

/-- The source text of the model, with settings that leave the name unresolved. -/
def decoratedFiles (name : String) : FileTree where
  workingDirectory := ["w"]
  entries :=
    [(["w", "m", ".ctoresolve.yaml"], .file "resolve-enum-property-decorators: false".toUTF8),
      (["w", "m", "x.cto"], .file ("namespace a enum E \x7b@d(" ++ name ++ ") o A\x7d").toUTF8)]

/-- The export of the model. -/
def decoratedExport (name : String) : Outcome :=
  (Request.exportAll "m" true true (some "A.json")).run (decoratedFiles name)

/-- The import of the export. -/
def decoratedImport (name : String) : Outcome :=
  (Request.importAll "A.json" "out" true).run (decoratedExport name).tree

/-- Whether the model sees the name or not, it is loaded and exported. -/
lemma exists_of_decorated {name : String} (hname : name ∈ ["E", "X"]) :
    (∃ r file, workspace (decoratedFiles name) (.ofString "m") = .ok r ∧ r.modelFiles = [file] ∧
      file.model = decorated name) ∧
    (decoratedExport name).ending = .success ∧
    (decoratedExport name).tree.IsFresh (.ofString "out") := by
  have hrun : ∀ name ∈ ["E", "X"], (workspace (decoratedFiles name) (.ofString "m")).map
        (fun r => r.modelFiles.map ModelFile.model) = .ok [decorated name] ∧
      (decoratedExport name).ending = .success ∧
      ((decoratedExport name).tree.makeDirectory (.ofString "out")).map (fun _ => ()) = .ok () := by
    decide +kernel
  obtain ⟨hload, hending, hmake⟩ := hrun name hname
  obtain ⟨r, hr, hmodels⟩ := map_eq_ok.mp hload
  obtain ⟨t', ht', -⟩ := map_eq_ok.mp hmake
  obtain ⟨file, hfiles, hmodel⟩ := List.map_eq_singleton_iff.mp hmodels
  exact ⟨⟨r, file, hr, hfiles, hmodel⟩, hending, FileTree.isFresh_of_makeDirectory ht'⟩

/-- The model has no doubles. -/
lemma isFinite_decorated (name : String) : (decorated name).IsFinite := fun _ hd => nomatch hd

lemma enumValueReferences_decorated (name : String) :
    (decorated name).enumValueReferences = [⟨name, none⟩] := rfl

/-- With a name that the model sees, it is loaded again. -/
theorem reloaded_of_exported_decorated :
    ∃ r, workspace (decoratedFiles "E") (.ofString "m") = .ok r ∧
      (∀ file ∈ r.modelFiles, file.model.IsFinite) ∧ (decoratedExport "E").ending = .success ∧
      (decoratedExport "E").tree.IsFresh (.ofString "out") ∧
      (decoratedImport "E").ending = .success ∧ ∃ r',
        (loadDirectory (decoratedImport "E").tree none (.ofString "out") true none).toExcept = .ok r' ∧
          ∀ ns, (r'.file? ns).map ModelFile.model = (r.file? ns).map ModelFile.model := by
  obtain ⟨⟨r, file, hload, hfiles, hmodel⟩, hsuccess, hfresh⟩ :=
    exists_of_decorated (List.mem_cons_self ..)
  have hfinite : ∀ file ∈ r.modelFiles, file.model.IsFinite := by
    rw [hfiles, List.forall_mem_singleton, hmodel]
    exact isFinite_decorated "E"
  have hresolve : r.EnumValuesResolve := by
    rw [Registry.EnumValuesResolve, hfiles, List.forall_mem_singleton, hmodel,
      enumValueReferences_decorated, List.forall_mem_singleton]
    exact ⟨_, .own (List.mem_singleton_self "E")⟩
  obtain ⟨-, hiff, hreload, -⟩ := reloaded_of_exported hload hfinite rfl hsuccess hfresh true rfl
  have hending : (decoratedImport "E").ending = .success := hiff.mpr hresolve
  exact ⟨r, hload, hfinite, hsuccess, hfresh, hending, hreload hending⟩

/-- With a name that the model does not see, the model is exported, but it cannot be imported. -/
theorem exported_not_imported :
    (∃ r, workspace (decoratedFiles "X") (.ofString "m") = .ok r ∧
      ∀ file ∈ r.modelFiles, file.model.IsFinite) ∧
    (decoratedExport "X").ending = .success ∧
    (decoratedExport "X").tree.IsFresh (.ofString "out") ∧
    (decoratedImport "X").ending = .failure "Name X not found" := by
  obtain ⟨⟨r, file, hload, hfiles, hmodel⟩, hsuccess, hfresh⟩ :=
    exists_of_decorated (List.mem_cons_of_mem "E" (List.mem_singleton_self "X"))
  have hfinite : ∀ file ∈ r.modelFiles, file.model.IsFinite := by
    rw [hfiles, List.forall_mem_singleton, hmodel]
    exact isFinite_decorated "X"
  -- the name is none of the model, is not imported, and is not built in
  have hunseen : ¬∃ ns, (decorated "X").Sees r .standard "X" ns := by
    rintro ⟨ns, hown | ⟨-, himports, -, -⟩ | ⟨-, -, hbase⟩⟩
    · exact absurd hown (by decide)
    · exact absurd himports (by simp [decorated])
    · exact absurd hbase (by decide)
  have hresolve : ¬r.EnumValuesResolve := by
    rwa [Registry.EnumValuesResolve, hfiles, List.forall_mem_singleton, hmodel,
      enumValueReferences_decorated, List.forall_mem_singleton]
  have hholds : HoldsExport (decoratedExport "X").tree (.ofString "A.json") r :=
    holdsExport_of_success hload hfinite rfl hsuccess
  obtain ⟨-, name, ⟨file', hfile, ref, href, rfl, -⟩, hending⟩ := importDocument_of_not_resolve
    (isLoaded_of_workspace hload) hfinite hholds hresolve (.ofString "out") true
  rw [hfiles, List.mem_singleton] at hfile
  rw [hfile, hmodel, enumValueReferences_decorated, List.mem_singleton] at href
  refine ⟨⟨r, hload, hfinite⟩, hsuccess, hfresh, hending.trans ?_⟩
  rw [href]
  rfl

end Command

end Concerto
