import Concerto.Proofs.Registry.Exchange
import Concerto.Registry.Load
import Mathlib.Data.List.Perm.Basic

/-!
The order in which files are loaded.

* `Registry.ofFiles`: the registry of model files in an order;
* `Registry.file?_perm`, `Registry.validate_perm`: in another order it has the same model files
  under the same namespaces, and is valid or not as before;
* `loadEach_eq_ok`: loading succeeds if all files hold models, of namespaces that differ;
* `loadFiles_perm`: files can be loaded in every order or in none, and resolve in the same way.
-/

namespace Concerto

/-! ### Model files in an order -/

namespace Registry

variable {s : Settings} {files files' : List ModelFile}

/-- The registry of model files, each under its own namespace. -/
def ofFiles (s : Settings) (files : List ModelFile) : Registry :=
  ⟨s, files.map fun file => (file.model.ns, file)⟩

@[simp] lemma modelFiles_ofFiles (s : Settings) (files : List ModelFile) :
    (ofFiles s files).modelFiles = files := by
  simp [ofFiles, modelFiles, Function.comp_def]

@[simp] lemma namespaces_ofFiles (s : Settings) (files : List ModelFile) :
    (ofFiles s files).namespaces = files.map (·.model.ns) := by
  simp [ofFiles, namespaces]

lemma append_ofFiles (s : Settings) (files : List ModelFile) (file : ModelFile) :
    (ofFiles s files).append file = ofFiles s (files ++ [file]) := by
  simp [ofFiles, append]

lemma wellKept_ofFiles (s : Settings) (h : (files.map (·.model.ns)).Nodup) :
    (ofFiles s files).WellKept where
  nodup := by rwa [namespaces_ofFiles]
  keys entry hentry := by
    obtain ⟨file, -, rfl⟩ := List.mem_map.mp hentry
    rfl

/-- A namespace leads to its model file wherever that stands. -/
lemma file?_ofFiles (h : (files.map (·.model.ns)).Nodup) {ns : String} {file : ModelFile} :
    (ofFiles s files).file? ns = some file ↔ file ∈ files ∧ file.model.ns = ns := by
  have hkept := wellKept_ofFiles s h
  constructor
  · intro hfile
    simpa using hkept.of_file? hfile
  · rintro ⟨hmem, rfl⟩
    exact hkept.file?_eq (by simpa using hmem)

section Perm

variable (h : files.Perm files') (hnodup : (files.map (·.model.ns)).Nodup)

include h hnodup

/-- The order of the model files does not matter for what is found. -/
lemma file?_perm (ns : String) : (ofFiles s files).file? ns = (ofFiles s files').file? ns := by
  have hnodup' : (files'.map (·.model.ns)).Nodup := (h.map _).nodup_iff.mp hnodup
  ext file
  rw [file?_ofFiles hnodup, file?_ofFiles hnodup', h.mem_iff]

/-- Nor does it matter for what names stand for. -/
lemma resolve_perm (s' : Settings) (m : Model) :
    (ofFiles s files).resolve s' m = (ofFiles s files').resolve s' m := by
  have hnames : (ofFiles s files).declarationNames? = (ofFiles s files').declarationNames? := by
    funext ns
    rw [declarationNames?, declarationNames?, file?_perm h hnodup]
  rw [resolve, resolve, NameTable.build_congr hnames]

/-- A valid registry is valid in every order. -/
lemma validate_perm (hvalid : (ofFiles s files).validate = .ok ()) :
    (ofFiles s files').validate = .ok () := by
  rw [validate_eq_ok, modelFiles_ofFiles] at hvalid ⊢
  intro file hfile
  obtain ⟨hnamed, m, hm⟩ := hvalid file (h.mem_iff.mpr hfile)
  exact ⟨hnamed, m, (resolve_perm h hnodup _ _).symm.trans hm⟩

end Perm

end Registry

/-! ### Files that are loaded -/

variable {t : FileTree} {s : Settings} {r r' : Registry} {path : PathName}
  {paths paths' : List PathName}

/-- A path leads to the source text of a model. -/
def Holds (t : FileTree) (path : PathName) (file : ModelFile) : Prop :=
  ∃ source, readSource t path = .ok source ∧ Model.parse source = .ok file.model ∧
    file.source = some source ∧ file.fileName = some path.text

/-- A file is loaded if it holds a model of a free namespace. -/
lemma loadFile_eq_ok : loadFile t r path = .ok r' ↔
    ∃ file, Holds t path file ∧ file.model.ns ∉ r.namespaces ∧ r' = r.append file := by
  simp only [loadFile, bind_eq_ok, mapError_eq_ok, Registry.addSource_eq_ok,
    Registry.addModel_eq_ok, Holds]
  constructor
  · rintro ⟨source, hread, m, hparse, hns, -, rfl⟩
    exact ⟨⟨m, some source, some path.text⟩, ⟨source, hread, hparse, rfl, rfl⟩, hns, rfl⟩
  · rintro ⟨⟨m, _, _⟩, ⟨source, hread, hparse, rfl, rfl⟩, hns, rfl⟩
    exact ⟨source, hread, m, hparse, hns, by simp, rfl⟩

/-- Files are loaded one after the other. -/
lemma toExcept_loadEach_cons : (loadEach t r (path :: paths)).toExcept =
    loadFile t r path >>= fun r => (loadEach t r paths).toExcept := by
  rw [loadEach]
  cases loadFile t r path <;> rfl

/-- Files are loaded if all of them hold models, whose namespaces differ from each other and from
those that are taken. -/
lemma loadEach_eq_ok {before : List ModelFile} (hnodup : (before.map (·.model.ns)).Nodup) :
    (loadEach t (.ofFiles s before) paths).toExcept = .ok r ↔
      ∃ files, List.Forall₂ (Holds t) paths files ∧
        ((before ++ files).map (·.model.ns)).Nodup ∧ r = .ofFiles s (before ++ files) := by
  induction paths generalizing before with
  | nil =>
      simp only [loadEach, Loaded.toExcept, List.forall₂_nil_left_iff, exists_eq_left,
        List.append_nil, Except.ok.injEq]
      exact ⟨fun h => ⟨hnodup, h.symm⟩, fun h => h.2.symm⟩
  | cons path paths ih =>
      -- a file can be added when its namespace is not among those of the files before it
      have hfree : ∀ file : ModelFile, file.model.ns ∉ (Registry.ofFiles s before).namespaces ↔
          ((before ++ [file]).map (·.model.ns)).Nodup := by
        intro file
        rw [Registry.namespaces_ofFiles, List.map_append, List.map_singleton, List.nodup_append]
        refine ⟨fun hns => ⟨hnodup, List.pairwise_singleton _ _, fun ns hmem ns' hmem' heq => ?_⟩,
          fun h hmem => h.2.2 _ hmem _ (List.mem_singleton_self _) rfl⟩
        rw [List.mem_singleton.mp hmem'] at heq
        exact hns (heq ▸ hmem)
      simp only [toExcept_loadEach_cons, bind_eq_ok, loadFile_eq_ok, List.forall₂_cons_left_iff, hfree]
      constructor
      · rintro ⟨_, ⟨file, hholds, hns, rfl⟩, hothers⟩
        rw [Registry.append_ofFiles, ih hns] at hothers
        obtain ⟨files, hfiles, hnodup', rfl⟩ := hothers
        rw [List.append_assoc] at hnodup' ⊢
        exact ⟨file :: files, ⟨file, files, hholds, hfiles, rfl⟩, hnodup', rfl⟩
      · rintro ⟨_, ⟨file, files, hholds, hfiles, rfl⟩, hnodup', hr⟩
        rw [← List.singleton_append, ← List.append_assoc] at hnodup' hr
        have hns : ((before ++ [file]).map (·.model.ns)).Nodup := by
          rw [List.map_append] at hnodup'
          exact (List.nodup_append.mp hnodup').1
        refine ⟨_, ⟨file, hholds, hns, rfl⟩, ?_⟩
        rw [Registry.append_ofFiles, ih hns]
        exact ⟨files, hfiles, hnodup', hr⟩

/-- Files are loaded into a new registry if they hold models of different namespaces. -/
lemma loadEach_empty_eq_ok : (loadEach t (.empty s) paths).toExcept = .ok r ↔
    ∃ files, List.Forall₂ (Holds t) paths files ∧ (files.map (·.model.ns)).Nodup ∧
      r = .ofFiles s files := by
  have hnodup : (([] : List ModelFile).map (·.model.ns)).Nodup := .nil
  exact loadEach_eq_ok hnodup

/-- Files that are loaded are checked together. -/
lemma toExcept_loadFiles : (loadFiles t r paths true).toExcept =
    (loadEach t r paths).toExcept >>= fun r => (r.validate.mapError .invalid).map fun _ => r := by
  rw [loadFiles]
  cases herror : (loadEach t r paths).error? with
  | some e => simp [Loaded.toExcept, herror, bind, Except.bind]
  | none =>
      simp only [if_true]
      cases hvalid : (loadEach t r paths).registry.validate <;>
        simp [Loaded.toExcept, herror, hvalid, bind, Except.bind, Except.mapError, Except.map]

/-- Files are loaded into a new registry if they hold models of different namespaces that are valid
together. -/
lemma loadFiles_eq_ok : (loadFiles t (.empty s) paths true).toExcept = .ok r ↔
    ∃ files, List.Forall₂ (Holds t) paths files ∧ (files.map (·.model.ns)).Nodup ∧
      r = .ofFiles s files ∧ r.validate = .ok () := by
  have hloaded : (loadFiles t (.empty s) paths true).toExcept = .ok r ↔
      (loadEach t (.empty s) paths).toExcept = .ok r ∧ r.validate = .ok () := by
    simp only [toExcept_loadFiles, bind_eq_ok, map_eq_ok, mapError_eq_ok]
    constructor
    · rintro ⟨_, hload, _, hvalid, rfl⟩
      exact ⟨hload, hvalid⟩
    · rintro ⟨hload, hvalid⟩
      exact ⟨r, hload, (), hvalid, rfl⟩
  rw [hloaded, loadEach_empty_eq_ok]
  exact ⟨fun ⟨⟨files, hfiles, hnodup, hr⟩, hvalid⟩ => ⟨files, hfiles, hnodup, hr, hvalid⟩,
    fun ⟨files, hfiles, hnodup, hr, hvalid⟩ => ⟨⟨files, hfiles, hnodup, hr⟩, hvalid⟩⟩

/-- Files that can be loaded can be loaded in another order, and give the same model files. -/
lemma exists_perm_of_loadFiles (h : paths.Perm paths') {files : List ModelFile}
    (hfiles : List.Forall₂ (Holds t) paths files) (hnodup : (files.map (·.model.ns)).Nodup)
    (hvalid : (Registry.ofFiles s files).validate = .ok ()) :
    ∃ files', files.Perm files' ∧
      (loadFiles t (.empty s) paths' true).toExcept = .ok (.ofFiles s files') := by
  obtain ⟨files', hfiles', hperm⟩ := List.perm_comp_forall₂ h.symm hfiles
  refine ⟨files', hperm.symm, loadFiles_eq_ok.mpr ⟨files', hfiles', ?_, rfl, ?_⟩⟩
  · exact (hperm.symm.map _).nodup_iff.mp hnodup
  · exact Registry.validate_perm hperm.symm hnodup hvalid

/-- Files are loaded into a new registry and checked in every order or in none. Two orders give the
same model files under the same namespaces, and every model is resolved, in both in the same way. -/
theorem loadFiles_perm (t : FileTree) (s : Settings) (h : paths.Perm paths') :
    ((∃ r, (loadFiles t (.empty s) paths true).toExcept = .ok r) ↔
      ∃ r, (loadFiles t (.empty s) paths' true).toExcept = .ok r) ∧
    ∀ r r', (loadFiles t (.empty s) paths true).toExcept = .ok r →
      (loadFiles t (.empty s) paths' true).toExcept = .ok r' →
      r.namespaces.Perm r'.namespaces ∧ (∀ ns, r.file? ns = r'.file? ns) ∧
        ∀ file ∈ r.modelFiles, ∀ validate,
          (∃ m, r.resolveModel s validate file.model = .ok m) ∧
          ∀ s', r.resolveModel s' validate file.model = r'.resolveModel s' validate file.model := by
  -- reordering is symmetric, so one direction serves for both
  have hreordered : ∀ {paths paths' : List PathName}, paths.Perm paths' →
      ∀ r, (loadFiles t (.empty s) paths true).toExcept = .ok r →
        ∃ files files', r = .ofFiles s files ∧ files.Perm files' ∧
          (files.map (·.model.ns)).Nodup ∧ r.validate = .ok () ∧
          (loadFiles t (.empty s) paths' true).toExcept = .ok (.ofFiles s files') := by
    intro paths paths' h r hr
    obtain ⟨files, hfiles, hnodup, rfl, hvalid⟩ := loadFiles_eq_ok.mp hr
    obtain ⟨files', hperm, hload⟩ := exists_perm_of_loadFiles h hfiles hnodup hvalid
    exact ⟨files, files', rfl, hperm, hnodup, hvalid, hload⟩
  refine ⟨⟨fun ⟨r, hr⟩ => ?_, fun ⟨r, hr⟩ => ?_⟩, fun r r' hr hr' => ?_⟩
  · obtain ⟨_, _, -, -, -, -, hload⟩ := hreordered h r hr
    exact ⟨_, hload⟩
  · obtain ⟨_, _, -, -, -, -, hload⟩ := hreordered h.symm r hr
    exact ⟨_, hload⟩
  · obtain ⟨files, files', rfl, hperm, hnodup, hvalid, hload⟩ := hreordered h r hr
    rw [hload, Except.ok.injEq] at hr'
    subst hr'
    refine ⟨by simpa using hperm.map _, Registry.file?_perm hperm hnodup, ?_⟩
    intro file hfile validate
    refine ⟨?_, fun s' => Registry.resolveModel_congr
      (Registry.resolve_perm hperm hnodup s' file.model) validate⟩
    obtain ⟨hnamed, m, hm⟩ := Registry.validate_eq_ok.mp hvalid file hfile
    exact ⟨m, Registry.resolveModel_eq_ok.mpr ⟨fun _ => hnamed, hm⟩⟩

/-- Two files with models that import each other. -/
def mutualFiles : FileTree where
  workingDirectory := []
  entries := [(["x"], .file "namespace a import b.D concept C extends D \x7b\x7d".toUTF8),
    (["y"], .file "namespace b import a.* @d(C) enum D \x7b\x7d".toUTF8)]

/-- The two files, in an order. -/
def mutualPaths : List PathName := [.absolute ["x"], .absolute ["y"]]

theorem loadFiles_perm_mutual :
    mutualPaths.Perm mutualPaths.reverse ∧
      ∃ r r', (loadFiles mutualFiles (.empty .standard) mutualPaths true).toExcept = .ok r ∧
        (loadFiles mutualFiles (.empty .standard) mutualPaths.reverse true).toExcept = .ok r' ∧
        r.namespaces = ["a", "b"] ∧ r.namespaces.Perm r'.namespaces ∧
        ∀ ns, r.file? ns = r'.file? ns := by
  have hperm : mutualPaths.Perm mutualPaths.reverse := .swap _ _ _
  have hload : (loadFiles mutualFiles (.empty .standard) mutualPaths true).toExcept.map
      Registry.namespaces = .ok ["a", "b"] := by decide +kernel
  obtain ⟨r, hr, hnamespaces⟩ := map_eq_ok.mp hload
  obtain ⟨hload', hsame⟩ := loadFiles_perm mutualFiles .standard hperm
  obtain ⟨r', hr'⟩ := hload'.mp ⟨r, hr⟩
  obtain ⟨hnamespaces', hfiles, -⟩ := hsame r r' hr hr'
  exact ⟨hperm, r, r', hr, hr', hnamespaces, hnamespaces', hfiles⟩

end Concerto
