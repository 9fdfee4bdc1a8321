import Concerto.Proofs.Files.Directory
import Concerto.Proofs.Registry.LoadFailure
import Concerto.Proofs.Text.LineFeeds
import Mathlib.Data.List.Nodup

/-!
Loading the models of a directory.

* `Registry.IsLoaded`, `isLoaded_of_loadDirectory`: what there is to know of a registry that has been
  loaded, whatever the directory held;
* `globMatches_ending`: a name matches the pattern for names with its ending;
* `modelPaths_of_isFolder`: all files of a directory of source texts are model files;
* `exists_loadDirectory`: models that are valid together under the standard settings are loaded from
  the directory of their source texts, as far as these tell them.
-/

namespace Concerto

/-! ### Registries that have been loaded -/

/-- A valid registry of models of different namespaces that have been read from files. -/
structure Registry.IsLoaded (r : Registry) : Prop where
  kept : r.WellKept
  valid : r.validate = .ok ()
  sources : ∀ file ∈ r.modelFiles, ∃ source, NoReturn source.toList ∧
    Model.parse source = .ok file.model

lemma Registry.IsLoaded.isRead {r : Registry} (h : r.IsLoaded) : r.IsRead := by
  intro file hfile
  obtain ⟨source, -, hparse⟩ := h.sources file hfile
  exact ⟨source, hparse⟩

/-- What is loaded from a directory is such a registry. -/
lemma isLoaded_of_loadDirectory {t : FileTree} {p : PathName} {r : Registry}
    (h : (loadDirectory t none p true none).toExcept = .ok r) : r.IsLoaded := by
  have hdirectory : t.isDirectory p = true := by
    by_contra hnone
    rw [loadDirectory, Bool.eq_false_of_not_eq_true hnone] at h
    cases h
  rw [toExcept_loadDirectory hdirectory] at h
  obtain ⟨s, -, h⟩ := bind_eq_ok.mp h
  obtain ⟨paths, -, h⟩ := bind_eq_ok.mp h
  obtain ⟨files, hholds, hnodup, rfl, hvalid⟩ := loadFiles_eq_ok.mp h
  refine ⟨Registry.wellKept_ofFiles s hnodup, hvalid, fun file hfile => ?_⟩
  rw [Registry.modelFiles_ofFiles] at hfile
  obtain ⟨path, -, source, hsource, hparse, -⟩ := exists_of_forall₂_right hholds file hfile
  obtain ⟨bytes, -, htext⟩ := bind_eq_ok.mp hsource
  exact ⟨source, Text.noReturn_of_ofBytes (mapError_eq_ok.mp htext), hparse⟩

/-! ### Names of model files -/

/-- A text matches the pattern without stars, question marks and sets that it is itself. -/
lemma globMatches_literal (cs : List Char) : globMatches (cs.map .char) cs = true := by
  induction cs with
  | nil => simp [globMatches]
  | cons c cs ih => simp [globMatches, ih]

/-- A text matches the pattern for texts that end in a part of it. -/
lemma globMatches_ending (stem ending : List Char) :
    globMatches (.anyText :: ending.map .char) (stem ++ ending) = true := by
  induction stem with
  | nil =>
      have hliteral := globMatches_literal ending
      cases ending with
      | nil => simp [globMatches]
      | cons c cs =>
          rw [List.nil_append, globMatches, hliteral]
          rfl
  | cons c stem ih =>
      rw [List.cons_append, globMatches, ih, Bool.or_true]

/-- The name of the file of a model. -/
def Model.sourceName (m : Model) : String := m.ns ++ Settings.standard.sourceSuffix

/-- The name of a model file is none that ends otherwise. -/
lemma Model.sourceName_ne (m : Model) {name : String} (h : name.toList.getLast? ≠ some 'o') :
    m.sourceName ≠ name := by
  rintro rfl
  apply h
  have hsuffix : Settings.standard.sourceSuffix = ".cto" := rfl
  simp [sourceName, hsuffix]

/-- Models of different namespaces have files of different names. -/
lemma nodup_sourceName {models : List Model} (h : (models.map Model.ns).Nodup) :
    (models.map Model.sourceName).Nodup := by
  have hnames : models.map Model.sourceName =
      (models.map Model.ns).map (· ++ Settings.standard.sourceSuffix) := by
    rw [List.map_map]
    rfl
  have hinjective : Function.Injective fun ns => ns ++ Settings.standard.sourceSuffix :=
    fun ns ns' heq => by simpa [String.ext_iff] using heq
  rw [hnames]
  exact List.Nodup.map hinjective h

/-! ### Directories of source texts -/

/-- The file that holds the source text of a model. -/
def Model.sourceEntry (m : Model) : String × ByteArray := (m.sourceName, m.toSource.toByteArray)

section

variable {t : FileTree} {p : PathName} {place : List String} {models : List Model}

/-- The model files of a directory of source texts are all its files. -/
lemma modelPaths_of_isFolder (h : t.IsFolder p place (models.map Model.sourceEntry)) :
    ∃ paths, modelPaths t p Settings.standard.sourceSuffix = .ok paths ∧
      (models.map fun m => p.below [m.sourceName]).Perm paths := by
  have hpattern : PathPattern.ofText ("*" ++ Settings.standard.sourceSuffix) =
      .ok ⟨[.name (.anyText :: Settings.standard.sourceSuffix.toList.map .char)], false⟩ := by
    decide +kernel
  have hplace : (t.locate p).toOption.getD [] = place := by rw [h.locate]; rfl
  have hfound : (t.filesBelow place).filter (PathPattern.matchesFile
      ⟨[.name (.anyText :: Settings.standard.sourceSuffix.toList.map .char)], false⟩) =
        models.map fun m => [m.sourceName] := by
    rw [h.filesBelow, List.map_map]
    refine List.filter_eq_self.mpr (List.forall_mem_map.mpr fun m _ => ?_)
    have hmatches := globMatches_ending m.ns.toList Settings.standard.sourceSuffix.toList
    simp [PathPattern.matchesFile, PathPattern.matchComponents, Model.sourceEntry, Model.sourceName,
      hmatches]
  rw [modelPaths, hpattern, hplace]
  simp only [bind, Except.bind, hfound]
  refine ⟨_, rfl, ?_⟩
  have hperm := (List.mergeSort_perm (models.map fun m => [m.sourceName])
    fun a b => !decide (b < a)).symm.map p.below
  rwa [List.map_map] at hperm

/-- The model file that is loaded of the source text of a model. -/
def Model.loadedFile (p : PathName) (m : Model) : ModelFile :=
  ⟨m.sourceForm, some m.toSource, some (p.below [m.sourceName]).text⟩

/-- Each of them holds the model of its source text. -/
lemma forall₂_holds_of_isFolder (h : t.IsFolder p place (models.map Model.sourceEntry))
    (hnodup : (models.map Model.ns).Nodup)
    (hparse : ∀ m ∈ models, Model.parse m.toSource = .ok m.sourceForm)
    (hreturn : ∀ m ∈ models, NoReturn m.toSource.toList) :
    List.Forall₂ (Holds t) (models.map fun m => p.below [m.sourceName])
      (models.map (Model.loadedFile p)) := by
  have hnames : (Entries.keys (models.map Model.sourceEntry)).Nodup := by
    rw [Entries.keys, List.map_map]
    exact nodup_sourceName hnodup
  refine List.forall₂_map_left_iff.mpr (List.forall₂_map_right_iff.mpr ?_)
  refine List.forall₂_same.mpr fun m hm => ⟨m.toSource, ?_, hparse m hm, rfl, rfl⟩
  have hbytes := h.readBytes (m.sourceName_ne (by decide))
    (Entries.lookup_of_mem hnames (List.mem_map_of_mem hm))
  rw [readSource, hbytes]
  simp only [Except.mapError, bind, Except.bind, Text.ofBytes_toByteArray (hreturn m hm)]

/-- There are no settings but the standard ones. -/
lemma find_of_isFolder (h : t.IsFolder p place (models.map Model.sourceEntry)) :
    Settings.find t p = .ok .standard := by
  have hnone : (models.map Model.sourceEntry).lookup Settings.fileName = none := by
    refine List.lookup_eq_none_iff.mpr (List.forall_mem_map.mpr fun m _ => ?_)
    simpa [Model.sourceEntry] using (m.sourceName_ne (by decide)).symm
  rw [Settings.find, h.not_isFile (by decide) hnone]
  rfl

/-- Models that are valid together are loaded from the directory of their source texts. -/
theorem exists_loadDirectory (h : t.IsFolder p place (models.map Model.sourceEntry))
    (hnodup : (models.map Model.ns).Nodup)
    (hparse : ∀ m ∈ models, Model.parse m.toSource = .ok m.sourceForm)
    (hreturn : ∀ m ∈ models, NoReturn m.toSource.toList)
    (hvalid : (Registry.ofFiles .standard (models.map (Model.loadedFile p))).validate = .ok ()) :
    ∃ r, (loadDirectory t none p true none).toExcept = .ok r ∧ ∀ ns,
      (r.file? ns).map ModelFile.model = (models.map fun m => (m.ns, m.sourceForm)).lookup ns := by
  have hholds := forall₂_holds_of_isFolder h hnodup hparse hreturn
  have hnodup' : ((models.map (Model.loadedFile p)).map (·.model.ns)).Nodup := by
    rwa [List.map_map]
  obtain ⟨paths, hpaths, hperm⟩ := modelPaths_of_isFolder h
  obtain ⟨files, hfiles, hload⟩ := exists_perm_of_loadFiles hperm hholds hnodup' hvalid
  refine ⟨.ofFiles .standard files, ?_, fun ns => ?_⟩
  · rw [toExcept_loadDirectory h.isDirectory, find_of_isFolder h]
    simp only [Except.mapError, bind, Except.bind, hpaths]
    exact hload
  · rw [← Registry.file?_perm hfiles hnodup', Registry.file?_eq_content]
    simp [Registry.content, Registry.ofFiles, Model.loadedFile, Model.sourceForm,
      Function.comp_def]

end

end Concerto
