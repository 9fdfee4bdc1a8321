import Concerto.Proofs.Registry.LoadOrder

/-!
What is left of a load that fails.

* `LoadCall`: files, or the model files below a directory, that are loaded into a registry;
* `LoadCall.paths`: the files that a call goes through;
* `Registry.appendAll`: the registry with more model files behind those that it has;
* `StopsAt`: where and why loading stops;
* `exists_of_loadEach`: files are loaded up to the one that loading stops at;
* `LoadCall.exists_of_failure`: so a call that fails leaves the models of all files before it in the
  registry, which is as it was only if there are none.
-/

namespace Concerto

/-! ### Registries that grow -/

namespace Registry

/-- The registry with model files put after all others, in their order. -/
def appendAll (r : Registry) (files : List ModelFile) : Registry := files.foldl append r

@[simp] lemma appendAll_nil (r : Registry) : r.appendAll [] = r := rfl

@[simp] lemma appendAll_cons (r : Registry) (file : ModelFile) (files : List ModelFile) :
    r.appendAll (file :: files) = (r.append file).appendAll files := rfl

@[simp] lemma namespaces_appendAll (r : Registry) (files : List ModelFile) :
    (r.appendAll files).namespaces = r.namespaces ++ files.map (·.model.ns) := by
  induction files generalizing r with
  | nil => simp
  | cons file files ih => simp [ih]

@[simp] lemma modelFiles_appendAll (r : Registry) (files : List ModelFile) :
    (r.appendAll files).modelFiles = r.modelFiles ++ files := by
  induction files generalizing r with
  | nil => simp
  | cons file files ih => simp [ih]

/-- A registry is as it was only if no model files have been put behind. -/
lemma appendAll_eq_self {r : Registry} {files : List ModelFile} :
    r.appendAll files = r ↔ files = [] := by
  refine ⟨fun h => ?_, fun h => by rw [h, appendAll_nil]⟩
  have hfiles : r.modelFiles ++ files = r.modelFiles := by
    rw [← modelFiles_appendAll, h]
  exact List.append_right_eq_self.mp hfiles

end Registry

/-! ### Files one after the other -/

variable {t : FileTree} {r : Registry} {e : LoadError}

/-- Loading stops before the files that remain: at the first of them, or at the check of all models
after the last one. -/
inductive StopsAt (t : FileTree) (r : Registry) (validate : Bool) (e : LoadError) :
    List PathName → Prop
  | file {path : PathName} {paths : List PathName} (h : loadFile t r path = .error e) :
      StopsAt t r validate e (path :: paths)
  | check {e' : RegistryError} (hvalidate : validate = true) (h : r.validate = .error e')
      (he : e = .invalid e') : StopsAt t r validate e []

/-- Whatever comes of it, the models of the first files are in the registry, and the others have not
been looked at, apart from the one that fails. -/
lemma exists_of_loadEach (t : FileTree) (r : Registry) (paths : List PathName) :
    ∃ before after files, paths = before ++ after ∧ List.Forall₂ (Holds t) before files ∧
      (loadEach t r paths).registry = r.appendAll files ∧
      ((after = [] ∧ (loadEach t r paths).error? = none) ∨
        ∃ path rest e, after = path :: rest ∧ (loadEach t r paths).error? = some e ∧
          loadFile t (r.appendAll files) path = .error e) := by
  induction paths generalizing r with
  | nil => exact ⟨[], [], [], rfl, .nil, rfl, .inl ⟨rfl, rfl⟩⟩
  | cons path paths ih =>
      rw [loadEach]
      cases hload : loadFile t r path with
      | error e =>
          exact ⟨[], path :: paths, [], rfl, .nil, rfl, .inr ⟨path, paths, e, rfl, rfl, hload⟩⟩
      | ok r' =>
          obtain ⟨file, hholds, -, rfl⟩ := loadFile_eq_ok.mp hload
          obtain ⟨before, after, files, rfl, hfiles, hregistry, hend⟩ := ih (r.append file)
          exact ⟨path :: before, after, file :: files, rfl, .cons hholds hfiles, hregistry, hend⟩

/-- Files that are not loaded leave the models of those before the one that loading stops at. -/
lemma exists_of_loadFiles {paths : List PathName} {validate : Bool}
    (h : (loadFiles t r paths validate).error? = some e) :
    ∃ before after files, paths = before ++ after ∧ List.Forall₂ (Holds t) before files ∧
      (loadFiles t r paths validate).registry = r.appendAll files ∧
      StopsAt t (r.appendAll files) validate e after := by
  obtain ⟨before, after, files, hpaths, hfiles, hregistry, hend⟩ := exists_of_loadEach t r paths
  refine ⟨before, after, files, hpaths, hfiles, ?_⟩
  rw [loadFiles] at h ⊢
  rcases hend with ⟨rfl, hnone⟩ | ⟨path, rest, e', rfl, hsome, hfail⟩
  · cases validate with
    | false => simp [hnone] at h
    | true =>
        simp only [hnone, hregistry, if_true] at h ⊢
        cases hvalid : (r.appendAll files).validate with
        | ok => simp [hvalid, hnone] at h
        | error e' =>
            simp only [hvalid, Option.some.injEq] at h ⊢
            exact ⟨trivial, .check rfl hvalid h.symm⟩
  · simp only [hsome, Option.some.injEq] at h ⊢
    exact ⟨hregistry, .file (h ▸ hfail)⟩

/-! ### Calls -/

/-- A call that loads models into a registry. -/
inductive LoadCall where
  | files (paths : List PathName) (validate : Bool)
  | directory (path : PathName) (validate : Bool) (settings : Option Settings)

namespace LoadCall

/-- What the call leaves of a registry. -/
def perform (t : FileTree) (r : Registry) : LoadCall → Loaded
  | files paths validate => loadFiles t r paths validate
  | directory path validate settings => loadDirectory t (some r) path validate settings

/-- The models are checked at the end. -/
def validates : LoadCall → Bool
  | files _ validate => validate
  | directory _ validate _ => validate

/-- The files that the call goes through. -/
def paths (t : FileTree) (r : Registry) : LoadCall → Except LoadError (List PathName)
  | files paths _ => .ok paths
  | directory path _ settings =>
    if t.isDirectory path then
      (modelPaths t path (settings.getD r.settings).sourceSuffix).mapError .pattern
    else .error (.noDirectory path)

/-- A call finds its files and then loads them. -/
lemma perform_eq (call : LoadCall) (t : FileTree) (r : Registry) :
    call.perform t r = match call.paths t r with
      | .ok paths => loadFiles t r paths call.validates
      | .error e => ⟨r, some e⟩ := by
  cases call with
  | files paths validate => rfl
  | directory path validate settings =>
      have hsettings : directorySettings t (some r) path settings =
          .ok (settings.getD r.settings) := by
        cases settings <;> rfl
      simp only [perform, paths, loadDirectory, hsettings, Option.getD_some, validates]
      cases t.isDirectory path with
      | false => rfl
      | true =>
          simp only [Bool.not_true, Bool.false_eq_true, if_false, if_true]
          cases modelPaths t path (settings.getD r.settings).sourceSuffix <;> rfl

/-- A call that fails has either not found its files, and left the registry as it was; or it has
put the models of the files before the one that it stops at behind those of the registry, in their
order. It stops at a file that cannot be read, has no text, no model, or one of a namespace that is
taken, also by a file before it, or else at the check of all models. So the registry is as it was
only if the very first file fails, or there are no files and the registry itself is not valid. -/
theorem exists_of_failure (t : FileTree) (r : Registry) (call : LoadCall)
    (h : (call.perform t r).error? = some e) :
    (call.paths t r = .error e ∧ (call.perform t r).registry = r) ∨
    ∃ before after files, call.paths t r = .ok (before ++ after) ∧
      List.Forall₂ (Holds t) before files ∧
      (call.perform t r).registry = r.appendAll files ∧
      (call.perform t r).registry.namespaces = r.namespaces ++ files.map (·.model.ns) ∧
      StopsAt t (r.appendAll files) call.validates e after ∧
      ((call.perform t r).registry = r ↔ before = []) := by
  rw [perform_eq] at h ⊢
  cases hpaths : call.paths t r with
  | error e' =>
      rw [hpaths] at h
      exact .inl ⟨congrArg _ (Option.some.inj h), rfl⟩
  | ok paths =>
      simp only [hpaths] at h ⊢
      obtain ⟨before, after, files, rfl, hfiles, hregistry, hstop⟩ := exists_of_loadFiles h
      have hnone : files = [] ↔ before = [] := by
        rw [← List.length_eq_zero_iff, ← hfiles.length_eq, List.length_eq_zero_iff]
      refine .inr ⟨before, after, files, rfl, hfiles, hregistry, ?_, hstop, ?_⟩
      · rw [hregistry, Registry.namespaces_appendAll]
      · rw [hregistry, Registry.appendAll_eq_self, hnone]

/-- A file with a model, and one without. -/
def halfBroken : FileTree where
  workingDirectory := []
  entries := [(["a"], .file "namespace a".toUTF8), (["b"], .file "concept \x7b".toUTF8)]

/-- Both files, the broken one last. -/
def loadBoth : LoadCall := files [.absolute ["a"], .absolute ["b"]] true

theorem exists_of_failure_halfBroken :
    ∃ e, (loadBoth.perform halfBroken (.empty .standard)).error? = some e ∧
      ∃ before after files, loadBoth.paths halfBroken (.empty .standard) = .ok (before ++ after) ∧
        List.Forall₂ (Holds halfBroken) before files ∧ before.length = 1 ∧
        StopsAt halfBroken ((Registry.empty .standard).appendAll files) true e after := by
  have hfails : (loadBoth.perform halfBroken (.empty .standard)).error?.isSome = true := by
    decide +kernel
  have hlength : (loadBoth.perform halfBroken (.empty .standard)).registry.namespaces.length = 1 := by
    decide +kernel
  obtain ⟨e, he⟩ := Option.isSome_iff_exists.mp hfails
  obtain ⟨⟨⟩, -⟩ | ⟨before, after, files, hpaths, hfiles, -, hnamespaces, hstop, -⟩ :=
    exists_of_failure halfBroken (.empty .standard) loadBoth he
  refine ⟨e, he, before, after, files, hpaths, hfiles, ?_, hstop⟩
  rw [hnamespaces] at hlength
  simpa [hfiles.length_eq] using hlength

/-- A call that fails may have put models into the registry. -/
theorem perform_halfBroken :
    ¬∀ (t : FileTree) (r : Registry) (call : LoadCall) (e : LoadError),
      (call.perform t r).error? = some e → (call.perform t r).registry = r := by
  intro h
  have hfails : (loadBoth.perform halfBroken (.empty .standard)).error?.isSome = true ∧
      (loadBoth.perform halfBroken (.empty .standard)).registry ≠ .empty .standard := by
    decide +kernel
  obtain ⟨e, he⟩ := Option.isSome_iff_exists.mp hfails.1
  exact hfails.2 (h _ _ _ _ he)

end LoadCall

end Concerto
